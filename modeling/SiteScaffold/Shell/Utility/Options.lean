/-
What the utilities share: how they take options, how they quote names, and how
they complain.
-/
import SiteScaffold.Shell.State

namespace SiteScaffold.Shell

/-- A program of the system: what it does with the name it was called by and its
arguments, and the status it ends with. -/
abbrev Utility := Raw → List Raw → Task Nat

namespace Utility

/-- Writes a complaint. -/
def complain (program message : Raw) : Task Unit := do
  discard <| Task.write 2 (program ++ ": " ++ message ++ ['\n'])

/-- The wording of a fault without its number. -/
def wording (fault : Fault) : Raw :=
  match Text.cut? " (os error" fault.message with
  | some (front, _) => front
  | none => fault.message

-- ========================================================== quoting

/-- Three octal digits for a byte. -/
def octalEscape (c : Char) : Raw :=
  let n := c.toNat
  ['\\', Char.ofNat (48 + n / 64 % 8), Char.ofNat (48 + n / 8 % 8), Char.ofNat (48 + n % 8)]

/-- The escape of a character that cannot be shown, if it is one. -/
def escape? (c : Char) : Option Raw :=
  match [('\x07', 'a'), ('\x08', 'b'), ('\x0c', 'f'), ('\n', 'n'), ('\r', 'r'), ('\t', 't'),
      ('\x0b', 'v')].lookup c with
  | some letter => some ['\\', letter]
  | none => if c < ' ' || '~' < c then some (octalEscape c) else none

/-- A name between quotation marks, with escapes. -/
def quote (name : Raw) : Raw :=
  let inner := name.flatMap fun c =>
    match escape? c with
    | some e => e
    | none => if c = '\'' || c = '\\' then ['\\', c] else [c]
  ['\''] ++ inner ++ ['\'']

/-- The characters that need quotes in a shell. -/
def needsQuotes (c : Char) : Bool :=
  c ∈ [' ', '!', '"', '$', '&', '(', ')', '*', ';', '<', '=', '>', '?', '[', '^', '\x60', '|', '\\',
    '\''] || (escape? c).isSome

/-- A name as a shell would take it, between quotation marks. -/
def shellQuote (name : Raw) : Raw :=
  let plainEnough := name.all fun c =>
    (escape? c).isNone && c ∉ ['"', '$', '\x60', '\\', '!']
  if name.contains '\'' && plainEnough then ['"'] ++ name ++ ['"']
  else
    let (inner, _) := name.foldl (fun (done, escaping) c =>
      match escape? c with
      | some e => (done ++ (if escaping then e else "'$'" ++ e), true)
      | none =>
        let done := if escaping then done ++ "''" else done
        (done ++ (if c = '\'' then "'\\''".toList else [c]), false)) (([] : Raw), false)
    ['\''] ++ inner ++ ['\'']

/-- A name as a shell would take it, between quotation marks only if it needs
them. -/
def shellQuoteIfNeeded (name : Raw) : Raw :=
  let special := name = [] || name.any needsQuotes || name.head? = some '~' || name.head? = some '#'
  if special then shellQuote name else name

-- ========================================================== options

/-- An option: its letter, its long name if it has one, and whether it takes a
value. -/
structure Opt where
  letter : Char
  long : Raw
  takes : Bool

/-- An option that is only a letter. -/
def flag (letter : Char) (long : String) : Opt := ⟨letter, long.toList, false⟩

/-- An option with a value. -/
def valued (letter : Char) (long : String) : Opt := ⟨letter, long.toList, true⟩

/-- The options that were given, each with its value, and the other words. -/
structure Given where
  options : List (Char × Raw)
  operands : List Raw

namespace Given

/-- Whether an option was given. -/
def has (g : Given) (letter : Char) : Bool := g.options.any (·.1 = letter)

/-- The value that was given last with an option. -/
def value? (g : Given) (letter : Char) : Option Raw := g.options.reverse.lookup letter

end Given

/-- What is wrong with options. -/
abbrev Misuse := Raw

/-- The option that a long name, or the start of one, stands for. -/
def long? (known : List Opt) (name : Raw) : Except Misuse Opt :=
  let all := known.filter (·.long ≠ []) ++ [flag '\x00' "help", flag '\x01' "version"]
  match all.find? (·.long = name) with
  | some o => .ok o
  | none =>
    match all.filter fun o => name.isPrefixOf o.long with
    | [o] => .ok o
    | [] => .error ("unrecognized option '--" ++ name ++ "'")
    | several =>
      .error ("option '--" ++ name ++ "' is ambiguous; possibilities:"
        ++ several.flatMap fun o => [' ', '\'', '-', '-'] ++ o.long ++ ['\''])

/-- The options in words, of which at most `fuel` characters are looked at. Unless
`ordered`, options may stand after other words. -/
def givenFrom (known : List Opt) (ordered : Bool) (fuel : Nat) (done : Given) (cluster : Raw)
    (args : List Raw) : Except Misuse Given := do
  match fuel, cluster, args with
  | 0, _, _ => .ok done
  | fuel + 1, c :: cluster, args =>
    match known.find? (·.letter = c) with
    | none => .error ("invalid option -- '" ++ [c] ++ "'")
    | some o =>
      if !o.takes then
        givenFrom known ordered fuel { done with options := done.options ++ [(c, [])] } cluster args
      else
        match cluster, args with
        | [], [] => .error ("option requires an argument -- '" ++ [c] ++ "'")
        | [], value :: args =>
          givenFrom known ordered fuel { done with options := done.options ++ [(c, value)] } [] args
        | value, args =>
          givenFrom known ordered fuel { done with options := done.options ++ [(c, value)] } [] args
  | _ + 1, [], [] => .ok done
  | fuel + 1, [], word :: args =>
    match word with
    | ['-', '-'] => .ok { done with operands := done.operands ++ args }
    | '-' :: '-' :: name =>
      let (name, value) := Raw.cutAt '=' name
      let o ← long? known name
      match value, o.takes, args with
      | some _, false, _ => .error ("option '--" ++ o.long ++ "' doesn't allow an argument")
      | some value, true, args =>
        givenFrom known ordered fuel { done with options := done.options ++ [(o.letter, value)] } []
          args
      | none, true, value :: args =>
        givenFrom known ordered fuel { done with options := done.options ++ [(o.letter, value)] } []
          args
      | none, true, [] => .error ("option '--" ++ o.long ++ "' requires an argument")
      | none, false, args =>
        givenFrom known ordered fuel { done with options := done.options ++ [(o.letter, [])] } [] args
    | '-' :: c :: more => givenFrom known ordered fuel done (c :: more) args
    | _ =>
      if ordered then .ok { done with operands := done.operands ++ word :: args }
      else givenFrom known ordered fuel { done with operands := done.operands ++ [word] } [] args

/-- The options in words. -/
def given? (known : List Opt) (ordered : Bool) (args : List Raw) : Except Misuse Given :=
  givenFrom known ordered (args.foldl (fun n word => n + word.length + 1) 1) ⟨[], []⟩ [] args

/-- Complains of how a program was called. -/
def misused (program : Raw) (reason : Raw) (status : Nat) : Task Nat := do
  if reason ≠ [] then complain program reason
  discard <| Task.write 2 ("Try '" ++ program ++ " --help' for more information.\n")
  return status

/-- A utility that takes options; one of them may ask for help only. -/
def withOptions (known : List Opt) (status : Nat) (body : Raw → Given → Task Nat) : Utility :=
  fun program args => do
    match given? known false args with
    | .ok g => if g.has '\x00' || g.has '\x01' then return 0 else body program g
    | .error reason => misused program reason status

/-- The same, where options stand before all other words. -/
def withLeadingOptions (known : List Opt) (status : Nat) (body : Raw → Given → Task Nat) :
    Utility :=
  fun program args => do
    match given? known true args with
    | .ok g => if g.has '\x00' || g.has '\x01' then return 0 else body program g
    | .error reason => misused program reason status

/-- Carries out a step for each operand; the worst status counts. -/
def forEach (operands : List Raw) (step : Raw → Task Nat) : Task Nat :=
  operands.foldlM (fun status operand => return max status (← step operand)) 0

/-- Changes the disk in one step, or complains. -/
def change (program doing : Raw) (step : Disk → Except Fault Disk) : Task Nat := do
  match step (← Task.disk) with
  | .ok disk =>
    Task.setDisk disk
    return 0
  | .error fault =>
    complain program (doing ++ ": " ++ wording fault)
    return 1

end Utility

end SiteScaffold.Shell

/-
The state of a running script: what is shared with other programs, and what the
process has to itself. A step of a script is a task: it changes the state, and it
either comes to its end or stops the script, the function or the loop that it
belongs to.

A command of the shell writes at its end what it has to write, so that its
complaints come first; `say` gathers, and `flush` writes.
-/
import SiteScaffold.Shell.Arithmetic
import SiteScaffold.Shell.Syntax
import SiteScaffold.Shell.World

namespace SiteScaffold.Shell

/-- A variable; one that is only marked has no value. -/
structure Variable where
  value : Option Raw
  exported : Bool
  readOnly : Bool
  deriving DecidableEq

/-- What was hidden while a function runs: a variable, or the options. -/
inductive Hidden where
  | variable (name : Raw) (old : Option Variable)
  | options (old : Raw)

/-- A function, with the line where it is defined. -/
structure Function where
  line : Nat
  body : Script

/-- The options that ask for a behaviour, each with its letter, in the order in
which they are listed. -/
def optionNames : List (Raw × Char) :=
  [ ("errexit", 'e'), ("noglob", 'f'), ("ignoreeof", 'I'), ("interactive", 'i'), ("monitor", 'm'),
    ("noexec", 'n'), ("stdin", 's'), ("xtrace", 'x'), ("verbose", 'v'), ("vi", 'V'), ("emacs", 'E'),
    ("noclobber", 'C'), ("allexport", 'a'), ("notify", 'b'), ("nounset", 'u'), ("privileged", 'p'),
    ("nolog", '\x00'), ("debug", '\x01') ]

/-- What a process has to itself. `number` is its own number, `shell` that of the
shell it belongs to; `line` is the line it is at, `lineAhead` the line up to which
the script has been read, `functionLine` the line of the function it is in, if it is
in one; `command` is the command that complaints name;
`asked` is the status of the last command whose output was asked for; `calls`
counts the functions that run, and `hidden` has a list for each of them; `found` are the programs that were looked for.
`nextArg` and `nextLetter` tell where the reading of options stands. -/
structure Process where
  number : Nat
  shell : Nat
  folder : Text
  mask : Nat
  name : Raw
  args : List Raw
  bindings : List (Raw × Variable)
  functions : List (Raw × Function)
  aliases : List (Raw × Raw)
  options : Raw
  status : Nat
  asked : Nat
  line : Nat
  lineAhead : Nat
  functionLine : Option Nat
  command : Option Raw
  loops : Nat
  calls : Nat
  hidden : List (List Hidden)
  traps : List (Nat × Raw)
  channels : List (Nat × Nat)
  said : List Raw
  texts : List (Nat × Word)
  nextText : Nat
  waiting : List (Nat × Process × Bool × Script)
  ended : List (Nat × Nat)
  lastJob : Option Nat
  nextArg : Nat
  nextLetter : Nat
  found : List (Raw × Raw)

/-- The state of a running script. -/
structure State where
  world : World
  own : Process

/-- How a part of a script stops early: by leaving the process, perhaps with a
status of its own; by a complaint, which leaves it, too, unless the command may
fail; by leaving a function or some loops; or by a signal. -/
inductive Stop where
  | exit (status : Option Nat)
  | complaint
  | leave
  | brk (loops : Nat)
  | cont (loops : Nat)
  | killed (signal : Nat)
  deriving Repr, DecidableEq

/-- A step of a script. -/
abbrev Task := ExceptT Stop (StateM State)

namespace Task

def own : Task Process := return (← get).own

def changeOwn (f : Process → Process) : Task Unit := modify fun s => { s with own := f s.own }

def changeWorld (f : World → World) : Task Unit := modify fun s => { s with world := f s.world }

def setStatus (status : Nat) : Task Unit := changeOwn fun p => { p with status }

-- ========================================================= the disk

/-- The disk but for the ends of files, which may lack what was written last. -/
def tree : Task Disk := return (← get).world.disk

/-- The disk as it is. -/
def disk : Task Disk := do
  changeWorld World.settled
  return (← get).world.disk

def setDisk (disk : Disk) : Task Unit := changeWorld fun w => { w with disk }

/-- A path as seen from the folder the process is in. -/
def path (r : Raw) : Task Text := do
  let folder := (← own).folder
  return if r = [] then [] else Path.join folder (Raw.text r)

-- ========================================================== writing

/-- Writes to a channel; answers whether that was possible. -/
def write (channel : Nat) (bytes : Raw) : Task Bool := do
  let s ← get
  match s.own.channels.lookup channel with
  | none => return bytes = []
  | some n =>
    match s.world.write? n bytes with
    | some world =>
      set { s with world }
      return true
    | none => return false

/-- Has a text written at the end of the command. -/
def say (bytes : Raw) : Task Unit := changeOwn fun p => { p with said := bytes :: p.said }

/-- Has a line written at the end of the command. -/
def sayLine (bytes : Raw) : Task Unit := say (bytes ++ ['\n'])

/-- Writes what was said; answers whether that was possible. -/
def flush : Task Bool := do
  let said := (← own).said
  if said.isEmpty then return true
  changeOwn fun p => { p with said := [] }
  write 1 said.reverse.flatten

/-- Where the script is, as complaints tell it. -/
def whereabouts : Task Raw := do
  let p ← own
  let command := match p.command with
    | some c => c ++ ": "
    | none => []
  return p.name ++ ": " ++ Text.ofNat p.line ++ ": " ++ command

/-- Writes a complaint of the shell. -/
def warn (message : Raw) : Task Unit := do
  discard <| write 2 ((← whereabouts) ++ message ++ ['\n'])

/-- Writes a complaint of the shell that ends the command. -/
def refuse {α : Type} (message : Raw) : Task α := do
  warn message
  setStatus 2
  throw .complaint

/-- Carries out a task and answers how it came out. -/
def attempt {α : Type} (task : Task α) : Task (Except Stop α) := fun s =>
  let (result, s) := task.run s
  (.ok result, s)

/-- Goes on as a task came out. -/
def resume {α : Type} (result : Except Stop α) : Task α := fun s => (result, s)

/-- Takes turns, each with what the one before it handed on, until nothing is
handed on; answers what was handed on last. -/
def iterate {α : Type} (turn : α → Task (Option α)) (limit : Nat) (a : α) : Task α := fun s =>
  match limit with
  | 0 => (.ok a, s)
  | limit + 1 =>
    match (turn a).run s with
    | (.ok (some b), s) => iterate turn limit b s
    | (.ok none, s) => (.ok a, s)
    | (.error stop, s) => (.error stop, s)

/-- How many turns are taken at most. -/
def forever : Nat := Nat.pow 10 12

-- ====================================================== descriptors

/-- What is there to be read from a channel. -/
def ahead? (channel : Nat) : Task (Option Raw) := do
  let s ← get
  match s.own.channels.lookup channel with
  | none => return none
  | some n => return s.world.ahead? n

/-- Passes over bytes of a channel. -/
def pass (channel count : Nat) : Task Unit := do
  match (← own).channels.lookup channel with
  | none => return
  | some n => changeWorld (·.passed n count)

/-- Reads all that is left in a channel. -/
def readAll (channel : Nat) : Task (Option Raw) := do
  let found ← ahead? channel
  pass channel ((found.getD []).length)
  return found

-- ======================================================== variables

/-- Whether an option is set. -/
def option (letter : Char) : Task Bool := return (← own).options.contains letter

/-- The value of a variable. -/
def getVariable? (name : Raw) : Task (Option Raw) := do
  return ((← own).bindings.lookup name).bind (·.value)

end Task

namespace Process

def getVariable? (p : Process) (name : Raw) : Option Variable := p.bindings.lookup name

/-- The process with a variable, whatever it was before. -/
def putVariable (p : Process) (name : Raw) (v : Variable) : Process :=
  { p with bindings := (name, v) :: p.bindings.filter (·.1 ≠ name) }

def dropVariable (p : Process) (name : Raw) : Process :=
  { p with bindings := p.bindings.filter (·.1 ≠ name) }

/-- The value of a variable that is known to be there, or nothing. -/
def valueOf (p : Process) (name : Raw) : Raw := ((p.getVariable? name).bind (·.value)).getD []

/-- The characters that separate fields. -/
def separators (p : Process) : Raw :=
  match (p.getVariable? "IFS").bind (·.value) with
  | some ifs => ifs
  | none => [' ', '\t', '\n']

/-- The variables that programs get. -/
def environment (p : Process) : List (Raw × Raw) :=
  p.bindings.filterMap fun (name, v) =>
    if v.exported then v.value.map fun value => (name, value) else none

end Process

namespace Task

/-- The number in a word, which has digits only; of a number that is too large only
the low bits count. -/
def number (word : Raw) : Task Nat := do
  if word ≠ [] && word.all Char.isDigit then
    return min (Arithmetic.value 10 word) (Nat.pow 2 63 - 1) % Nat.pow 2 32
  refuse ("Illegal number: " ++ word)

/-- What goes along with a variable that changes. -/
def noticeChange (name : Raw) (value : Raw) : Task Unit := do
  if name = "OPTIND" then
    let n := if value ≠ [] && value.all Char.isDigit then Arithmetic.value 10 value else 1
    changeOwn fun p => { p with nextArg := n, nextLetter := 0 }
  else if name = "PATH" then changeOwn fun p => { p with found := [] }

/-- Sets a variable; one that is read-only cannot be set. -/
def setVariable (name value : Raw) : Task Unit := do
  let p ← own
  let old := p.getVariable? name
  if old.any (·.readOnly) then refuse (name ++ ": is read only")
  noticeChange name value
  let exported := old.any (·.exported) || p.options.contains 'a'
  changeOwn (·.putVariable name ⟨some value, exported, false⟩)

/-- Takes a variable away. -/
def unsetVariable (name : Raw) : Task Unit := do
  let p ← own
  let old := p.getVariable? name
  if old.any (·.readOnly) then refuse (name ++ ": is read only")
  noticeChange name []
  changeOwn (·.dropVariable name)

/-- Hides a variable until the function or command ends. -/
def hide (name : Raw) : Task Unit :=
  changeOwn fun p =>
    match p.hidden with
    | [] => p
    | frame :: frames => { p with hidden := (.variable name (p.getVariable? name) :: frame) :: frames }

/-- Brings back what was hidden last. -/
def unhide : Task Unit := do
  match (← own).hidden with
  | [] => return
  | frame :: frames =>
    changeOwn fun p => { p with hidden := frames }
    frame.forM fun
      | .options old => changeOwn fun p => { p with options := old }
      | .variable name old => do
        noticeChange name ((old.bind (·.value)).getD [])
        match old with
        | some v => changeOwn (·.putVariable name v)
        | none => changeOwn (·.dropVariable name)

end Task

end SiteScaffold.Shell

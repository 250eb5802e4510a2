/-
Expanding words: values are put in the place of parameters, outputs in the place
of commands and numbers in the place of expressions. What comes out is split into
fields, and fields that are patterns are replaced by the files they match.

A word expands to atoms. Only what stands in a region is split, and a region in
which quoted arguments stand is split between the arguments alone, which a zero
character separates.
-/
import SiteScaffold.Shell.Arithmetic
import SiteScaffold.Shell.Glob
import SiteScaffold.Shell.State

namespace SiteScaffold.Shell

/-- What a word expands to. -/
inductive Atom where
  | char (c : Char) (quoted : Bool)
  /-- A quotation mark. -/
  | mark
  /-- The start of a region that is split, or only split between arguments. -/
  | regionStart (argumentsOnly : Bool)
  | regionEnd
  deriving Repr, DecidableEq

/-- Runs commands and answers what they write. -/
abbrev Capture := Option Script → Task Raw

/-- How a word is expanded: whether it will be split, whether its own characters
are split, too, and whether a tilde may stand for a folder: at this place, and
after each colon. `run` tells that a run of own characters has just been put into
a region, and `skip` how many characters belong to a tilde before them. -/
structure Expansion where
  splits : Bool
  own : Bool
  tilde : Bool
  afterColon : Bool
  run : Bool
  skip : Nat

namespace Expansion

/-- A word of a command. -/
def fields : Expansion := ⟨true, false, true, false, false, 0⟩

/-- A word that stays in one piece. -/
def whole : Expansion := ⟨false, false, true, false, false, 0⟩

/-- The value in an assignment. -/
def assigned : Expansion := ⟨false, false, true, true, false, 0⟩

/-- The same beyond the first part. -/
def beyond (mode : Expansion) : Expansion := { mode with tilde := false, run := false, skip := 0 }

/-- The argument of an operator, as a part of the word. -/
def argument (mode : Expansion) (quoted : Bool) : Expansion :=
  { mode with own := mode.splits && !quoted, tilde := true, run := false, skip := 0 }

/-- A text in the script. -/
def text : Expansion := ⟨false, false, false, false, false, 0⟩

end Expansion

namespace Expand

-- =========================================================== values

/-- The letters of the options that are set, as the shell tells them. -/
def optionLetters (p : Process) : Raw :=
  (optionNames.reverse.map (·.2)).filter fun letter => ' ' < letter && p.options.contains letter

/-- The arguments as one text. -/
def allArguments (p : Process) (name : Raw) (splits quoted : Bool) : Raw :=
  let first := match (p.getVariable? "IFS").bind (·.value) with
    | some ifs => ifs.take 1
    | none => [' ']
  let isSet := ((p.getVariable? "IFS").bind (·.value)).isSome
  let separator :=
    if quoted && splits && name = "@" then ['\x00']
    else if splits && !quoted then (if isSet then ['\x00'] else [' '])
    else first
  Text.join separator p.args

/-- The value of a parameter, if it has one. -/
def parameter? (p : Process) (name : Raw) (splits quoted : Bool) : Option Raw :=
  match name with
  | ['@'] | ['*'] => some (allArguments p name splits quoted)
  | ['#'] => some (Text.ofNat p.args.length)
  | ['?'] => some (Text.ofNat p.status)
  | ['$'] => some (Text.ofNat p.shell)
  | ['!'] => p.lastJob.map Text.ofNat
  | ['-'] => some (optionLetters p)
  | _ =>
    if name.head?.any Char.isDigit then
      match Arithmetic.value 10 name with
      | 0 => some p.name
      | n + 1 => p.args[n]?
    else (p.getVariable? name).bind (·.value)

/-- The folder a tilde with a name stands for. -/
def home? (p : Process) (name : Raw) : Option Raw :=
  match String.ofList name with
  | "" => (p.getVariable? "HOME").bind (·.value)
  | "root" => some "/root"
  | _ => none

/-- The plain characters that the parts start with. -/
def plainStart (ps : List Part) : Raw × List Part :=
  match ps with
  | .char c false :: rest =>
    let (front, back) := plainStart rest
    (c :: front, back)
  | _ => ([], ps)

/-- The folder that a tilde before parts stands for, and the number of characters
that name it. -/
def tilde? (p : Process) (afterColon : Bool) (ps : List Part) : Option (Raw × Nat) :=
  let (front, back) := plainStart (ps.take 64)
  let name := front.takeWhile fun c => !(c = '/' || (afterColon && c = ':'))
  if name.length = front.length && !back.isEmpty then none
  else (home? p name).map fun folder => (folder, name.length)

/-- The characters of a value, the last first, after those in `done`. -/
def pushChars (quoted : Bool) (done : List Atom) (value : Raw) : List Atom :=
  value.foldl (fun done c => .char c quoted :: done) done

/-- A value in the place of a part; without quotes it makes a region. -/
def pushValue (quoted : Bool) (done : List Atom) (value : Raw) : List Atom :=
  if quoted then pushChars true done value
  else .regionEnd :: pushChars false (.regionStart false :: done) value

/-- The value of a parameter in the place of a part. -/
def pushParameter (p : Process) (name : Raw) (quoted : Bool) (done : List Atom) (value : Raw) :
    List Atom :=
  if quoted && name = "@" && !p.args.isEmpty then
    .regionEnd :: pushChars true (.regionStart true :: done) value
  else pushValue quoted done value

/-- The text of atoms. -/
def plain (atoms : List Atom) : Raw :=
  atoms.filterMap fun
    | .char c _ => some c
    | _ => none

/-- The characters of atoms, each with whether it may have a meaning in a
pattern. -/
def marked (atoms : List Atom) : List Glob.Marked :=
  atoms.filterMap fun
    | .char c quoted => some (c, !quoted)
    | _ => none

/-- Complains about a parameter that has no value. -/
def lacking {α : Type} (name reason : Raw) : Task α := Task.refuse (name ++ ": " ++ reason)

/-- The value of an arithmetic expression, whose assignments are carried out. -/
def arithmetic (expression : Raw) : Task Int := do
  let p ← Task.own
  let lookup := fun (name : Raw) => (p.getVariable? name).bind (·.value)
  match Arithmetic.evaluate lookup expression with
  | .ok (n, assigned) =>
    assigned.forM fun (name, value) => Task.setVariable name (Raw.ofInt value)
    return n
  | .error (.notNumber value) => Task.refuse ("Illegal number: " ++ value)
  | .error (.malformed reason) =>
    Task.refuse ("arithmetic expression: " ++ reason ++ ": \"" ++ expression ++ "\"")

-- ============================================================ words

/-- The atoms of a parameter with an operator, where `read` gives those of its argument
after the ones it is told. -/
def parameter (read : Expansion → List Atom → Task (List Atom)) (mode : Expansion)
    (done : List Atom) (name : Raw) (operator : Operator) (colon isBare quoted : Bool) :
    Task (List Atom) := do
  let p ← Task.own
  let found := parameter? p name mode.splits quoted
  let counts := if colon then found.filter (· ≠ []) else found
  let required : Task (Option Raw) := do
    if found.isNone && p.options.contains 'u' then lacking name "parameter not set"
    return found
  let trimmed := fun (trim : Glob → Raw → Raw) => do
    match ← required with
    | none => return done
    | some value =>
      let pattern ← read .whole []
      let glob := Glob.ofMarked (marked pattern.reverse)
      return pushParameter p name quoted done (trim glob value)
  match operator with
  | .unknown => Task.refuse "Bad substitution"
  | .plain =>
    match ← required with
    | none => return done
    | some value => return pushParameter p name quoted done value
  | .length =>
    let value := (← required).getD []
    return pushValue quoted done (Text.ofNat value.length)
  | .minus =>
    match counts with
    | some value => return pushParameter p name quoted done value
    | none => read (mode.argument quoted) done
  | .plus =>
    match counts with
    | some _ => read (mode.argument quoted) done
    | none => return pushParameter p name quoted done []
  | .assign =>
    match counts with
    | some value => return pushParameter p name quoted done value
    | none =>
      let value ← read .whole []
      let value := plain value.reverse
      if !Raw.isName name then Task.refuse (name ++ ": bad variable name")
      Task.setVariable name value
      return pushValue quoted done value
  | .question =>
    match counts with
    | some value => return pushParameter p name quoted done value
    | none =>
      let message ← read .whole []
      let usual : Raw := if colon then "parameter not set or null" else "parameter not set"
      lacking name (if isBare then usual else plain message.reverse)
  | .trimStart longest => trimmed fun glob value => glob.dropStart longest value
  | .trimEnd longest => trimmed fun glob value => glob.dropEnd longest value

/-- The atoms of parts after those in `done`, the last first. -/
def parts (capture : Capture) (mode : Expansion) (done : List Atom) :
    List Part → Task (List Atom)
  | [] => return done
  | .char c quoted :: rest => do
    if let skip + 1 := mode.skip then return ← parts capture { mode with skip } done rest
    if mode.tilde && c = '~' && !quoted then
      if let some (folder, skip) := tilde? (← Task.own) mode.afterColon rest then
        return ← parts capture { mode.beyond with skip } (pushChars true done folder) rest
    let mode := { mode with tilde := mode.afterColon && c = ':' && !quoted }
    if mode.own && !quoted then
      let done := match mode.run, done with
        | true, .regionEnd :: before => before
        | _, _ => .regionStart false :: done
      parts capture { mode with run := true } (.regionEnd :: .char c quoted :: done) rest
    else parts capture { mode with run := false } (.char c quoted :: done) rest
  | .mark :: rest => parts capture mode.beyond (.mark :: done) rest
  | .param name operator colon argument quoted :: rest => do
    let read := fun mode done => parts capture mode done argument
    let done ← parameter read mode done name operator colon argument.isEmpty quoted
    parts capture mode.beyond done rest
  | .output body quoted :: rest => do
    let value ← capture body
    parts capture mode.beyond (pushValue quoted done value) rest
  | .number expression quoted :: rest => do
    let inner ← parts capture .text [] expression
    let n ← arithmetic (plain inner.reverse)
    parts capture mode.beyond (pushValue quoted done (Raw.ofInt n)) rest

-- =========================================================== fields

/-- How far a word has been split: the fields so far, the last first; the field
at this place, its last atom first; whether and how the place is in a region;
whether separators are passed over, and whether one of them may still be other
than white space; whether the last region was one of arguments, and whether the
one before it was, so that each separator in it counts. -/
structure Splitting where
  done : List (List Atom)
  now : List Atom
  region : Option Bool
  passing : Option Bool
  ofArguments : Bool
  strict : Bool

namespace Splitting

/-- Ends the field at this place. -/
def cut (x : Splitting) (passing : Option Bool) : Splitting :=
  { x with done := x.now.reverse :: x.done, now := [], passing }

/-- Whether a character is white space among the separators; a zero character
between arguments counts as such. -/
def isWhite (c : Char) : Bool := c = ' ' || c = '\t' || c = '\n' || c = '\x00'

/-- Splits at an atom. -/
def step (separators : Raw) (x : Splitting) (atom : Atom) : Splitting :=
  match atom with
  | .regionStart only =>
    { x with region := some only, passing := none, ofArguments := only, strict := x.ofArguments }
  | .regionEnd => { x with region := none, passing := none }
  | .mark => { x with now := .mark :: x.now }
  | .char c _ =>
    let keep : Splitting := { x with now := atom :: x.now, passing := none }
    match x.region with
    | none => keep
    | some true => if c = '\x00' then x.cut none else keep
    | some false =>
      if c ∉ separators && c ≠ '\x00' then keep
      else if x.strict then x.cut none
      else
        match x.passing, isWhite c with
        | some _, true => x
        | some true, false => { x with passing := some false }
        | _, white => if white && x.now.isEmpty then x else x.cut (some white)

end Splitting

/-- The fields of expanded words. -/
def split (separators : Raw) (atoms : List Atom) : List (List Atom) :=
  let x := atoms.foldl (Splitting.step separators) ⟨[], [], none, none, false, false⟩
  if x.now.isEmpty && !x.ofArguments then x.done.reverse else (x.now.reverse :: x.done).reverse

/-- How far a line has been divided among names: the fields so far, the last first;
the field at this place, its last character first; how many names are left but for
the one whose field it is; whether the place is in a region, and whether white space
before it ended a field. The last name gets all that is left. `short` is what it gets
if nothing more comes but what it leaves out: white space, and one separator after
its only field. -/
structure Division where
  done : List Raw
  now : Raw
  left : Nat
  inRegion : Bool
  passing : Bool
  short : Option Raw

namespace Division

/-- Divides at a separator, or goes on with another character. Characters outside
regions are no separators, and leave open what the last name gets. -/
def step (separators : Raw) (x : Division) (atom : Atom) : Division :=
  match atom with
  | .regionStart _ => { x with inRegion := true, passing := false }
  | .regionEnd => { x with inRegion := false }
  | .mark => x
  | .char c _ =>
    let kept : Division := { x with now := c :: x.now }
    let separates := separators.contains c
    let white := separates && Splitting.isWhite c
    if !x.inRegion then kept
    else if x.left = 0 then
      if white then { kept with short := x.short.orElse fun _ => some x.now }
      else { kept with short := if separates && x.passing then x.short else none, passing := false }
    else if x.passing then
      { x with now := if separates then [] else [c], passing := white }
    else if !separates then kept
    else if white && x.now.isEmpty then x
    else if x.left = 1 then
      { kept with left := 0, passing := white, short := some x.now }
    else
      { x with done := x.now :: x.done, now := [], left := x.left - 1, passing := white }

end Division

/-- The fields of a line for so many names, of which the last one gets what the
others leave. -/
def splitLine (separators : Raw) (names : Nat) (atoms : List Atom) : List Raw :=
  let x := atoms.foldl (Division.step separators) ⟨[], [], names, false, false, none⟩
  let last := x.short.getD x.now
  ((if last.isEmpty then x.done else last :: x.done).map List.reverse).reverse

/-- The steps of a marked path. -/
def steps (field : List Glob.Marked) : List (List Glob.Marked) :=
  field.foldr (fun (c, active) done =>
    match done with
    | [] => [[(c, active)]]
    | step :: more => if c = '/' then [] :: step :: more else ((c, active) :: step) :: more) [[]]

/-- The paths that the steps of a pattern lead to from the paths found so far. -/
def matching (disk : Disk) (folder : Text) : List (List Glob.Marked) → List Raw → List Raw
  | [], found => found
  | step :: more, found =>
    let ending : Raw := if more.isEmpty then [] else ['/']
    let next : List Raw := found.flatMap fun base =>
      if Glob.isPattern step then
        match disk.list (Path.join folder (if base = [] then ['.'] else Raw.text base)) with
        | .ok entries =>
          let glob := Glob.ofMarked step
          let hidden := match step with
            | ('\\', true) :: next :: _ => next.1 = '.'
            | first :: _ => first.1 = '.'
            | [] => false
          let own : List Raw := [['.'], ['.', '.']]
          let names := own ++ entries.map fun (name, _) => Raw.ofText name
          (names.filter fun name =>
            glob.accepts name && (hidden || name.head? ≠ some '.')).map (base ++ · ++ ending)
        | .error _ => []
      else [base ++ Glob.unescaped step ++ ending]
    matching disk folder more next

/-- The files that a field matches, in the order of their bytes; the field itself
if it is no pattern or matches none. -/
def files (disk : Disk) (p : Process) (field : List Atom) : List Raw :=
  let characters := marked field
  if p.options.contains 'f' || !Glob.isPattern characters then [plain field]
  else
    let found := (matching disk p.folder (steps characters) [[]]).filter fun path =>
      (disk.find false (Path.join p.folder (Raw.text path))).toOption.isSome
    match found with
    | [] => [plain field]
    | _ => found.mergeSort fun a b => !Text.less b a

/-- The fields that a word expands to. -/
def fields (capture : Capture) (w : Word) : Task (List Raw) := do
  match plainText? w with
  | some t =>
    if t.any (· ∈ ['*', '?', '[', '~']) then expanded else return [t]
  | none => expanded
where
  /-- The fields of a word that has to be looked into. -/
  expanded : Task (List Raw) := do
    let atoms ← parts capture .fields [] w
    let disk ← Task.tree
    let p ← Task.own
    return (split p.separators atoms.reverse).flatMap (files disk p)

/-- The text that a word expands to in one piece. -/
def whole (capture : Capture) (mode : Expansion) (w : Word) : Task Raw := do
  return plain (← parts capture mode [] w).reverse

/-- The pattern that a word expands to. -/
def pattern (capture : Capture) (w : Word) : Task Glob := do
  return Glob.ofMarked (marked (← parts capture .whole [] w).reverse)

end Expand

end SiteScaffold.Shell

/-
The commands of the shell that show, set, mark and read variables, and those that
work on the arguments.
-/
import SiteScaffold.Shell.Builtin.Options
import SiteScaffold.Shell.Expand

namespace SiteScaffold.Shell

namespace Builtin

/-- The name and the value in a word that assigns. -/
def assignment (word : Raw) : Raw × Option Raw := Raw.cutAt '=' word

/-- Refuses a name that no variable can have. -/
def checkName (name : Raw) : Task Unit :=
  if Raw.isName name then pure () else Task.refuse (name ++ ": bad variable name")

/-- Shows variables by name, each after a word. -/
def showVariables (word : Raw) (shown : Variable → Bool) : Task Unit := do
  let p ← Task.own
  let sorted := (p.bindings.filter (shown ·.2)).mergeSort fun a b => !Text.less b.1 a.1
  sorted.forM fun (name, v) =>
    let value := match v.value with
      | some value => '=' :: quoted value
      | none => []
    Task.sayLine (word ++ (if word = [] then [] else [' ']) ++ name ++ value)

/-- Marks variables, which may get values first. -/
def mark (word : Raw) (change : Variable → Variable) (shown : Variable → Bool)
    (args : List Raw) : Task Nat := do
  let (letters, operands) ← options ['p'] args
  if !letters.isEmpty || operands.isEmpty then
    showVariables word shown
    return 0
  operands.forM fun operand => do
    let (name, value) := assignment operand
    let old := (← Task.own).getVariable? name
    match value, old with
    | none, some v => Task.changeOwn (·.putVariable name (change v))
    | none, none =>
      checkName name
      Task.changeOwn (·.putVariable name (change ⟨none, false, false⟩))
    | some value, _ =>
      checkName name
      Task.setVariable name value
      Task.changeOwn fun p =>
        match p.getVariable? name with
        | some v => p.putVariable name (change v)
        | none => p
  return 0

def exportNames (args : List Raw) : Task Nat :=
  mark "export" (fun v => { v with exported := true }) (·.exported) args

def makeReadOnly (args : List Raw) : Task Nat :=
  mark "readonly" (fun v => { v with readOnly := true }) (·.readOnly) args

/-- Takes variables or functions away. -/
def unset (args : List Raw) : Task Nat := do
  let (letters, operands) ← options ['v', 'f'] args
  let functions := letters.getLast?.any (·.1 = 'f')
  operands.forM fun name => do
    if functions then
      Task.changeOwn fun p => { p with functions := p.functions.filter (·.1 ≠ name) }
    else
      checkName name
      Task.unsetVariable name
  return 0

/-- Hides variables until the function that runs ends; they may get values. -/
def makeLocal (args : List Raw) : Task Nat := do
  if (← Task.own).hidden.isEmpty then Task.refuse "not in a function"
  args.forM fun operand => do
    if operand = "-" then
      Task.changeOwn fun p =>
        match p.hidden with
        | [] => p
        | frame :: frames => { p with hidden := (.options p.options :: frame) :: frames }
    else
      let (name, value) := assignment operand
      let old := (← Task.own).getVariable? name
      if old.isNone || value.isSome then checkName name
      Task.hide name
      match value with
      | some value => Task.setVariable name value
      | none => pure ()
  return 0

/-- Sets other arguments. -/
def setArguments (args : List Raw) : Task Unit :=
  Task.changeOwn fun p => { p with args, nextArg := 1, nextLetter := 0 }

/-- Sets options and arguments, or shows the variables. -/
def set (args : List Raw) : Task Nat := do
  if args.isEmpty then
    showVariables [] (·.value.isSome)
    return 0
  let (_, ending, rest) ← shellOptions false (extent args) [] true [] args
  if ending = .dash then
    Task.changeOwn fun p => { p with options := p.options.filter fun c => c ≠ 'x' && c ≠ 'v' }
  if ending = .marked || !rest.isEmpty then setArguments rest
  return 0

/-- Drops arguments from the front. -/
def shift (args : List Raw) : Task Nat := do
  let n ← match args with
    | [] => pure 1
    | n :: _ => Task.number n
  let p ← Task.own
  if n > p.args.length then Task.refuse "can't shift that many"
  setArguments (p.args.drop n)
  return 0

-- ==================================================== reading lines

/-- The atoms of a line, the last first; how many bytes were read, and whether the
line has an end. What stands after a backslash is not split. -/
def lineFrom (plain : Bool) (done : List Atom) (count : Nat) : Raw → List Atom × Nat × Bool
  | [] => (done, count, false)
  | '\\' :: rest =>
    if plain then lineFrom plain (.char '\\' false :: done) (count + 1) rest
    else
      match rest with
      | [] => (done, count + 1, false)
      | '\n' :: rest => lineFrom plain (.regionStart false :: .regionEnd :: done) (count + 2) rest
      | c :: rest =>
        lineFrom plain (.regionStart false :: .char c true :: .regionEnd :: done) (count + 2) rest
  | '\n' :: _ => (done, count + 1, true)
  | c :: rest =>
    lineFrom plain (if c = '\x00' then done else .char c false :: done) (count + 1) rest

/-- Reads a line into variables. -/
def read (args : List Raw) : Task Nat := do
  let (letters, names) ← options ['p', ':', 'r'] args
  if names.isEmpty then Task.refuse "arg count"
  let plain := letters.any (·.1 = 'r')
  let (line, count, complete) :=
    lineFrom plain [.regionStart false] 0 ((← Task.ahead? 0).getD [])
  Task.pass 0 count
  let values := Expand.splitLine (← Task.own).separators names.length line.reverse
  (List.range names.length).forM fun i => do
    let name := names.getD i []
    checkName name
    Task.setVariable name (values.getD i [])
  return if complete then 0 else 1

-- =================================================== reading options

/-- The allowed options from a letter on. A colon after a letter is passed over with
it; one that stands elsewhere is an option itself. -/
def fromLetter (letter : Char) : Raw → Raw
  | [] => []
  | c :: ':' :: rest => if c = letter then c :: ':' :: rest else fromLetter letter rest
  | c :: rest => if c = letter then c :: rest else fromLetter letter rest

/-- Reads the next option from arguments. -/
def nextOption (allowed name : Raw) (args : List Raw) : Task Nat := do
  let p ← Task.own
  let index := if p.nextArg > args.length + 1 then 1 else p.nextArg
  let letterAt := if p.nextArg > args.length + 1 then 0 else p.nextLetter
  let finish := fun (index letterAt : Nat) (letter : Char) (ended : Bool) => do
    Task.setVariable "OPTIND" (Text.ofNat index)
    checkName name
    Task.setVariable name [letter]
    Task.changeOwn fun p => { p with nextArg := index, nextLetter := letterAt }
    return if ended then 1 else 0
  let started : Raw :=
    if index ≤ 1 || letterAt = 0 then [] else (args.getD (index - 2) []).drop letterAt
  let word := args.getD (index - 1) []
  let atEnd := started = [] && (args.length < index || word.head? ≠ some '-' || word.length < 2)
  if atEnd then return ← finish index 0 '?' true
  if started = [] && word = "--" then return ← finish (index + 1) 0 '?' true
  let (index, letterAt, cluster) :=
    if started = [] then (index + 1, 1, word.drop 1) else (index, letterAt, started)
  let letter := cluster.head?.getD '?'
  let more := cluster.drop 1
  let after := if more = [] then 0 else letterAt + 1
  let silent := allowed.head? = some ':'
  match fromLetter letter allowed with
  | [] =>
    if silent then Task.setVariable "OPTARG" [letter]
    else
      discard <| Task.write 2 ("Illegal option -" ++ [letter, '\n'])
      Task.unsetVariable "OPTARG"
    finish index after '?' false
  | _ :: ':' :: _ =>
    if more ≠ [] then
      Task.setVariable "OPTARG" more
      finish index 0 letter false
    else
      match args[index - 1]? with
      | some value =>
        Task.setVariable "OPTARG" value
        finish (index + 1) 0 letter false
      | none =>
        if silent then
          Task.setVariable "OPTARG" [letter]
          finish index 0 ':' false
        else
          discard <| Task.write 2 ("No arg for -" ++ [letter] ++ " option\n")
          Task.unsetVariable "OPTARG"
          finish index 0 '?' false
  | _ =>
    Task.setVariable "OPTARG" []
    finish index after letter false

/-- Reads the next option from words, or from the arguments of the shell. -/
def getopts (args : List Raw) : Task Nat := do
  let (_, operands) ← options [] args
  match operands with
  | allowed :: name :: [] => nextOption allowed name (← Task.own).args
  | allowed :: name :: words => nextOption allowed name words
  | _ => Task.refuse "Usage: getopts optstring var [arg...]"

end Builtin

end SiteScaffold.Shell

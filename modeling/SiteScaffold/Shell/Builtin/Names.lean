/-
The commands of the shell that tell what a name stands for: aliases, the programs
that were looked for, and what kind of command a word is.
-/
import SiteScaffold.Shell.Builtin.Options

namespace SiteScaffold.Shell

namespace Builtin

/-- How a shell shows a list of names: by a sum of their characters, of which the
remainder counts, and names that agree in it in the order in which they came. -/
def bySum (divisor limit : Nat) {α : Type} (entries : List (Raw × α)) : List (Raw × α) :=
  let sum := fun (name : Raw) =>
    (name.foldl (fun n c => n + c.toNat) ((name.head?.getD '\x00').toNat * 16)) % limit % divisor
  entries.mergeSort fun a b => sum a.1 ≤ sum b.1

/-- An alias as it is shown. -/
def aliasText (name value : Raw) : Raw := name ++ "=" ++ quoted value

/-- Sets or shows aliases. -/
def aliases (args : List Raw) : Task Nat := do
  if args.isEmpty then
    (bySum 39 (Nat.pow 2 32) (← Task.own).aliases).forM fun (name, value) =>
      Task.sayLine (aliasText name value)
    return 0
  args.foldlM (fun status word => do
    let (tail, value) := Raw.cutAt '=' (word.drop 1)
    let name := word.take 1 ++ tail
    match value with
    | some value =>
      Task.changeOwn fun p =>
        if (p.aliases.lookup name).isSome then
          { p with aliases := p.aliases.map fun (n, v) => (n, if n = name then value else v) }
        else { p with aliases := p.aliases ++ [(name, value)] }
      return status
    | none =>
      match (← Task.own).aliases.lookup word with
      | some value =>
        Task.sayLine (aliasText word value)
        return status
      | none =>
        discard <| Task.write 2 ("alias: " ++ word ++ " not found\n")
        return 1) 0

/-- Takes aliases away. -/
def unalias (args : List Raw) : Task Nat := do
  let (letters, operands) ← options ['a'] args
  if !letters.isEmpty then
    Task.changeOwn fun p => { p with aliases := [] }
    return 0
  operands.foldlM (fun status name => do
    if ((← Task.own).aliases.lookup name).isSome then
      Task.changeOwn fun p => { p with aliases := p.aliases.filter (·.1 ≠ name) }
      return status
    else
      discard <| Task.write 2 ("unalias: " ++ name ++ " not found\n")
      return 1) 0

-- ================================================ looking for programs

/-- The paths at which a program may be, by the folders that are searched. -/
def candidates (folders name : Raw) : List Raw :=
  (Text.split ':' folders).map fun folder => Path.join folder name

/-- The first file with a name in the folders that are searched. -/
def findProgram? (folders name : Raw) : Task (Option Raw) := do
  let disk ← Task.disk
  let p ← Task.own
  return (candidates folders name).find? fun path =>
    disk.isFile (Path.join p.folder (Raw.text path))

/-- The same, where what was found is kept. -/
def remembered? (name : Raw) : Task (Option Raw) := do
  let p ← Task.own
  match p.found.lookup name with
  | some path => return some path
  | none =>
    let path ← findProgram? (p.valueOf "PATH") name
    match path with
    | some path => Task.changeOwn fun p => { p with found := p.found ++ [(name, path)] }
    | none => pure ()
    return path

/-- The folders that hold the usual programs. -/
def usualFolders : Raw := "/usr/sbin:/usr/bin:/sbin:/bin"

/-- Shows, forgets or looks for programs. -/
def hash (args : List Raw) : Task Nat := do
  let (letters, operands) ← options ['r'] args
  if !letters.isEmpty then
    Task.changeOwn fun p => { p with found := [] }
    return 0
  if operands.isEmpty then
    (bySum 31 32768 (← Task.own).found).forM fun (_, path) => Task.sayLine path
    return 0
  operands.foldlM (fun status name => do
    if name.contains '/' then return status
    Task.changeOwn fun p => { p with found := p.found.filter (·.1 ≠ name) }
    match ← remembered? name with
    | some _ => return status
    | none =>
      Task.warn (name ++ ": not found")
      return 1) 0

/-- Tells what a name stands for, in words or as a command; `kind?` knows the
commands of the shell, and whether each is a special one. -/
def describe (kind? : Raw → Option Bool) (keywords : List Raw) (folders : Option Raw)
    (wordy : Bool) (name : Raw) : Task Nat := do
  let p ← Task.own
  let tell := fun (words short : Raw) => do
    Task.sayLine (if wordy then name ++ words else short)
    return 0
  if name ∈ keywords then return ← tell " is a shell keyword" name
  match p.aliases.lookup name with
  | some value => return ← tell (" is an alias for " ++ value) ("alias " ++ aliasText name value)
  | none => pure ()
  if (p.functions.lookup name).isSome then return ← tell " is a shell function" name
  match kind? name with
  | some special =>
    return ← tell (if special then " is a special shell builtin" else " is a shell builtin") name
  | none => pure ()
  let known := if folders.isNone then p.found.lookup name else none
  let path ←
    if name.contains '/' then do
      let disk ← Task.disk
      let isThere := disk.holds (Path.join p.folder (Raw.text name))
      pure (if isThere then some name else none)
    else match folders with
      | some folders => findProgram? folders name
      | none => remembered? name
  match path with
  | some path => tell ((if known.isSome then " is a tracked alias for " else " is ") ++ path) path
  | none =>
    if wordy then Task.sayLine (name ++ ": not found")
    return 127

/-- Tells in words what names stand for. -/
def type (kind? : Raw → Option Bool) (keywords : List Raw) (args : List Raw) : Task Nat := do
  let (_, operands) ← options [] args
  operands.foldlM (fun status name => do
    return max status (← describe kind? keywords none true name)) 0

/-- Tells what a name stands for, if that is asked for. -/
def command (kind? : Raw → Option Bool) (keywords : List Raw) (args : List Raw) : Task Nat := do
  let (letters, operands) ← options ['p', 'v', 'V'] args
  let asks := letters.filter (·.1 ≠ 'p')
  match operands.head?, asks.isEmpty with
  | some name, false =>
    let folders := if letters.any (·.1 = 'p') then some usualFolders else none
    describe kind? keywords folders (asks.any (·.1 = 'V')) name
  | _, _ => return 0

end Builtin

end SiteScaffold.Shell

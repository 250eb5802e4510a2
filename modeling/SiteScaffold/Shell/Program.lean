/-
Programs: what kind of program a file is shows at its place, if the system keeps
one of its utilities there, or at the interpreter that its first line names.
-/
import SiteScaffold.Shell.Utility

namespace SiteScaffold.Shell

/-- A program that can be started. -/
inductive Program where
  /-- A shell, which reads its script from a file, its arguments or its input. -/
  | shell
  /-- A program that runs another one with other variables. -/
  | env
  | utility (run : Utility)
  /-- A script for an interpreter, which may get an argument of its own. -/
  | script (interpreter : Raw) (argument : Option Raw)

namespace Program

/-- The names under which the system keeps a shell. -/
def shells : List Raw := ["sh", "dash"]

/-- The folders of programs that belong to the system. -/
def systemFolders : List Key := [["bin"], ["usr", "bin"]]

/-- The program that the system keeps at a place. -/
def ofSystem? (place : Key) : Option Program := do
  let name ← place.getLast?
  if place.dropLast ∉ systemFolders then none
  else if name ∈ shells then some .shell
  else if name = "env" then some .env
  else (Utility.all.lookup name).map .utility

/-- The interpreter that the first line of a script names, and the argument it
gives to it. Only the start of a long line counts. -/
def interpreter? (content : Raw) : Option (Raw × Option Raw) :=
  let isGap := fun (c : Char) => c = ' ' || c = '\t'
  match content.take 256 with
  | '#' :: '!' :: rest =>
    let line := (rest.takeWhile (· ≠ '\n')).dropWhile isGap
    let line := (line.reverse.dropWhile isGap).reverse
    let path := line.takeWhile fun c => !isGap c && c ≠ '\x00'
    let argument := (line.drop path.length).dropWhile isGap
    if path = [] then none
    else some (path, if argument = [] then none else some (argument.takeWhile (· ≠ '\x00')))
  | _ => none

/-- The program in the file at a path, where `depth` more interpreters may be
looked at. -/
def at? (disk : Disk) (folder : Text) (depth : Nat) (path : Text) : Except Fault Program := do
  match ← disk.find true (Path.join folder path) with
  | (place, .file true content) =>
    match ofSystem? place with
    | some program => .ok program
    | none =>
      match interpreter? (Raw.ofBytes content.bytes) with
      | none => .error .notExecutable
      | some (interpreter, argument) =>
        match depth with
        | 0 => .error .tooManyLinks
        | depth + 1 =>
          let _ ← at? disk folder depth (Raw.text interpreter)
          .ok (.script interpreter argument)
  | _ => .error .denied

/-- How many interpreters may be looked at. -/
def interpreters : Nat := 5

/-- The program at the first of some paths that can be started. -/
def first? (disk : Disk) (folder : Text) : List Raw → Except Fault (Raw × Program)
  | [] => .error .missing
  | path :: paths =>
    match at? disk folder interpreters (Raw.text path) with
    | .ok program => .ok (path, program)
    | .error fault =>
      match first? disk folder paths with
      | .ok found => .ok found
      | .error .missing =>
        .error (if fault = .notFolder then .missing else fault)
      | .error other => .error other

/-- The program that a name stands for: a path, or a name to be searched for. -/
def resolve (disk : Disk) (folder : Text) (folders : Raw) (name : Raw) :
    Except Fault (Raw × Program) :=
  if name = [] then .error .missing
  else if name.contains '/' then do
    return (name, ← at? disk folder interpreters (Raw.text name))
  else
    first? disk folder ((Text.split ':' folders).map fun place =>
      Path.join (if place = [] then ['.'] else place) name)

end Program

end SiteScaffold.Shell

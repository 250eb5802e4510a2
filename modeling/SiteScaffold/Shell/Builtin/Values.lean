/-
The commands of the shell that write words and decide conditions.
-/
import SiteScaffold.Shell.Builtin.Options
import SiteScaffold.Shell.Condition
import SiteScaffold.Shell.Printing

namespace SiteScaffold.Shell

namespace Builtin

/-- Writes words. -/
def echo (args : List Raw) : Task Nat := do
  Task.say (Printing.echo args)
  return 0

/-- Writes words as a format asks. -/
def printf (args : List Raw) : Task Nat := do
  let (_, operands) ← options [] args
  match operands with
  | [] => Task.refuse "usage: printf format [arg ...]"
  | format :: args =>
    let (out, complaints, halt, _) := Printing.printf .double format args
    let complaints := complaints.filterMap (·.message?)
    complaints.forM Task.warn
    Task.say out
    match halt with
    | some (.unknown spelled) => Task.refuse (spelled ++ ": invalid directive")
    | some (.cut _) => Task.refuse "missing format character"
    | some .tooWide => Task.refuse "xvsnprintf failed"
    | _ => return if complaints.isEmpty then 0 else 1

/-- What conditions find true of an entry at a place. -/
def entryHas (letter : Char) (place : Key) (entry : Entry) : Bool :=
  let isNull := place = World.nullPlace
  match letter, entry with
  | 'f', .file _ _ => !isNull
  | 'c', .file _ _ => isNull
  | 'd', .folder => true
  | 's', .file _ content => content.bytes ≠ []
  | 's', .folder => true
  | 'x', .file executable _ => executable
  | 'x', .folder => true
  | letter, _ => letter ∈ ['e', 'r', 'w', 'O', 'G']

/-- What conditions ask, of a disk. -/
def factsOf (disk : Disk) (p : Process) : Facts :=
  let locate := fun (follow : Bool) (path : Raw) =>
    if path = [] then none
    else (disk.find follow (Path.join p.folder (Raw.text path))).toOption
  { file := fun letter path =>
      if letter = 'h' || letter = 'L' then
        match locate false path with
        | some (_, .link _) => true
        | _ => false
      else (locate true path).any fun (place, entry) => entryHas letter place entry
    terminal := fun _ => false
    files := fun operator a b =>
      match locate true a, locate true b with
      | some (place, _), some (other, _) => operator = "-ef" && place = other
      | _, _ => false }

/-- Decides a condition. What files hold counts only if their size is asked for. -/
def test (args : List Raw) : Task Nat := do
  let disk ← if args.contains "-s" then Task.disk else Task.tree
  match Condition.holds (factsOf disk (← Task.own)) args with
  | .ok holds => return if holds then 0 else 1
  | .error reason => Task.refuse reason

/-- Decides a condition between brackets. -/
def bracket (args : List Raw) : Task Nat := do
  if args.getLast? ≠ some [']'] then Task.refuse "missing ]"
  test args.dropLast

end Builtin

end SiteScaffold.Shell

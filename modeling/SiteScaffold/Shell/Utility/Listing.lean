/-
The utility that lists the names in folders.
-/
import SiteScaffold.Shell.Utility.Entries

namespace SiteScaffold.Shell

namespace Utility

/-- A name as it is listed: with a mark for its kind, if that is asked for. -/
def listed (g : Given) (name : Raw) (entry : Entry) : Raw :=
  let mark : Raw := match entry with
    | .folder => if g.has 'F' || g.has 'p' then ['/'] else []
    | .link _ => if g.has 'F' then ['@'] else []
    | .file executable _ => if g.has 'F' && executable then ['*'] else []
  name ++ mark

/-- Lists names, in order. -/
def listNames (g : Given) (names : List (Raw × Entry)) : Task Unit := do
  let separator : Raw := if g.has 'm' then ", " else ['\n']
  let ordered := if g.has 'r' then names.reverse else names
  let shown := ordered.map fun (name, entry) => listed g name entry
  if !shown.isEmpty then Task.sayLine (Text.join separator shown)

/-- The names in a folder that are shown. -/
def shownNames (g : Given) (disk : Disk) (place : Key) : List (Raw × Entry) :=
  let names := (disk.children place).map fun (name, entry) => (Raw.ofText name, entry)
  let named := names.filter fun (name, _) =>
    g.has 'a' || g.has 'A' || name.head? ≠ some '.'
  if g.has 'a' then (".", .folder) :: ("..", .folder) :: named else named

/-- Lists folders one after the other, each with those below it if that is asked
for. -/
def listFolders (g : Given) (titled : Bool) (fuel : Nat) (first : Bool)
    (folders : List (Raw × Key)) : Task Unit := do
  match fuel, folders with
  | 0, _ | _, [] => return
  | fuel + 1, (name, place) :: rest =>
    let disk ← Task.disk
    if !first then Task.sayLine []
    if titled then Task.sayLine (shellQuoteIfNeeded name ++ ":")
    let names := shownNames g disk place
    listNames g names
    let below := if g.has 'R' then
        names.filterMap fun (child, entry) =>
          if entry.isFolder && child ≠ "." && child ≠ ".." then
            some (joined name child, place ++ [Raw.text child])
          else none
      else []
    let below := if g.has 'r' then below.reverse else below
    listFolders g titled fuel false (below ++ rest)

def ls : Utility :=
  withOptions [flag 'a' "all", flag 'A' "almost-all", flag '1' "", flag 'd' "directory",
      flag 'R' "recursive", flag 'r' "reverse", flag 'F' "classify", flag 'p' "", flag 'm' "",
      flag 'l' "", flag 'h' "human-readable", flag 't' "", flag 'S' "", flag 'C' "", flag 'x' "",
      flag 'U' "", flag 'f' "", flag 'i' "inode", flag 's' "size", flag 'n' "", flag 'N' "literal",
      flag 'L' "dereference", flag 'q' "", flag 'G' ""] 2 fun program g => do
    let operands : List Raw := if g.operands.isEmpty then ["."] else g.operands
    let sorted := operands.mergeSort fun a b => !Text.less b a
    let follow := !(g.has 'd' || g.has 'F' || g.has 'l') || g.has 'L'
    let (status, files, folders) ← operands.foldlM (fun (status, files, folders) name => do
      let found ← do
        match ← find follow name with
        | .ok found => pure (Except.ok found)
        | .error _ => find false name
      match found with
      | .error fault =>
        complain program ("cannot access " ++ shellQuote name ++ ": " ++ wording fault)
        return (2, files, folders)
      | .ok (place, entry) =>
        if entry.isFolder && !g.has 'd' then return (status, files, (name, place) :: folders)
        return (status, (name, entry) :: files, folders)) (0, [], [])
    let files : List (Raw × Entry) := files
    let folders : List (Raw × Key) := folders
    let names := sorted.filterMap fun name => (files.lookup name).map fun entry => (name, entry)
    let places := sorted.filterMap fun name => (folders.lookup name).map fun place => (name, place)
    listNames g names
    let places := if g.has 'r' then places.reverse else places
    let titled := operands.length > 1 || g.has 'R'
    let disk ← Task.disk
    listFolders g titled (disk.entries.length + places.length + 1) names.isEmpty places
    return status

end Utility

end SiteScaffold.Shell

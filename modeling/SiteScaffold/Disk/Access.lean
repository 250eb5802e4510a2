/-
Reading and changing a disk by path: the single steps that the system offers.
Each either succeeds or reports a fault and leaves the disk alone. Only
`makeFolders` and `removeTree`, which take several steps, can fail part-way, and
so answer with the disk they leave in either case.

A step that makes, removes or moves an entry never follows a link at the end of
its path, not even if the path ends in a slash.
-/
import SiteScaffold.Disk.Resolve

namespace SiteScaffold.Disk

-- ========================================================== reading

/-- The content of a file. -/
def read (disk : Disk) (path : Text) : Except Fault Content := do
  match ← disk.find true path with
  | (_, .file _ content) => .ok content
  | _ => .error .isFolder

/-- The content of a text file. -/
def readText (disk : Disk) (path : Text) : Except Fault Text := do
  match ← disk.read path with
  | .text t => .ok t
  | _ => .error .notText

/-- The names and entries in a folder, by name. -/
def list (disk : Disk) (path : Text) : Except Fault (List (Text × Entry)) := do
  match ← disk.find true path with
  | (k, .folder) => .ok (disk.children k)
  | _ => .error .notFolder

/-- An entry met on a walk. -/
structure Visit where
  path : Text
  entry : Entry
  deriving Repr, DecidableEq

/-- The entry a path leads to and all entries below it, depth first and
siblings by name. The start of the walk is followed if it is a link, links met
on the way are not. -/
def walk (disk : Disk) (top : Text) : Except Fault (List Visit) := do
  let (_, start) ← disk.find false top
  let below ← match start with
    | .file _ _ => pure []
    | _ => do
      match ← disk.find true top with
      | (k, .folder) => pure (disk.below k)
      | _ => pure []
  .ok (⟨top, start⟩ :: below.map fun (k, e) => ⟨Path.join top (Text.join ['/'] k), e⟩)

-- ========================================================== writing

/-- The disk with a file holding the given content; a file that is there
keeps its mode. -/
def write (disk : Disk) (path : Text) (content : Content) : Except Fault Disk := do
  match ← disk.locate true path with
  | .entry k (.file executable _) => .ok (disk.insert k (.file executable content))
  | .entry _ _ | .slashed _ | .free _ true => .error .isFolder
  | .free k false => .ok (disk.insert k (.file false content))

/-- The disk with a new folder. -/
def makeFolder (disk : Disk) (path : Text) : Except Fault Disk := do
  match ← disk.locate false (Path.bare path) with
  | .entry _ _ | .slashed _ => .error .alreadyThere
  | .free k _ => .ok (disk.insert k .folder)

/-- Makes the folder `path`, and first, if its parent is missing, the parents
it has. -/
def makeFolderBelow (disk : Disk) (path : Text) (parents : List Text) :
    Except Fault Unit × Disk :=
  match disk.makeFolder path with
  | .ok made => (.ok (), made)
  | .error .missing =>
    match parents with
    | [] => (.error .noWholeTree, disk)
    | parent :: parents =>
      match disk.makeFolderBelow parent parents with
      | (.error fault, disk) => (.error fault, disk)
      | (.ok (), disk) =>
        match disk.makeFolder path with
        | .ok made => (.ok (), made)
        | .error fault => (if disk.isFolder path then .ok () else .error fault, disk)
  | .error fault => (if disk.isFolder path then .ok () else .error fault, disk)

/-- The folders above a path, the nearest first, as far as `depth` goes. -/
def parentsOf (depth : Nat) (path : Text) : List Text :=
  match depth with
  | 0 => []
  | depth + 1 =>
    match Path.parent? path with
    | some [] | none => []
    | some parent => parent :: parentsOf depth parent

/-- Makes a folder with all folders above it that are missing; a folder that
is there is left as it is. -/
def makeFolders (disk : Disk) (path : Text) : Except Fault Unit × Disk :=
  if path = [] then (.ok (), disk)
  else disk.makeFolderBelow path (parentsOf path.length path)

/-- The disk without a file or link. -/
def removeFile (disk : Disk) (path : Text) : Except Fault Disk := do
  match ← disk.find false (Path.bare path) with
  | (_, .folder) => .error .isFolder
  | (k, _) => if Path.endsInSlash path then .error .notFolder else .ok (disk.erase k)

/-- The disk without an empty folder. A path that ends in `.` or `..` does not
name the folder it leads to. -/
def removeFolder (disk : Disk) (path : Text) : Except Fault Disk := do
  let name := (Path.segments (Path.bare path)).getLast?
  match ← disk.find false (Path.bare path) with
  | (k, .folder) =>
    if name = some "." then .error .invalid
    else if name = some ".." || !(disk.below k).isEmpty then .error .notEmpty
    else .ok (disk.erase k)
  | _ => .error .notFolder

/-- Removes a folder and everything below it; what is below goes first, and is
gone even if the folder itself stays. It is no fault if the path leads nowhere
by then. A link to a folder is removed as a link. -/
def removeTree (disk : Disk) (path : Text) : Except Fault Unit × Disk :=
  match disk.find false path with
  | .error fault => (.error fault, disk)
  | .ok (_, .file _ _) => (.error .notFolder, disk)
  | .ok (k, .link _) => (.ok (), disk.erase k)
  | .ok (k, .folder) =>
    match (disk.clear k).removeFolder path with
    | .ok disk => (.ok (), disk)
    | .error .missing => (.ok (), disk.clear k)
    | .error fault => (.error fault, disk.clear k)

/-- The disk with an entry, and all below it, moved to another path. A file
may take the place of a file and a folder that of an empty folder. -/
def move (disk : Disk) (source target : Text) : Except Fault Disk := do
  let (origin, entry) ← disk.find false (Path.bare source)
  let asFolder := Path.endsInSlash source || Path.endsInSlash target
  match ← disk.locate false (Path.bare target) with
  | .slashed _ => .error .notFolder
  | .free place _ =>
    if asFolder && !entry.isFolder then .error .notFolder
    else if origin.within place then .error .invalid
    else .ok (disk.relocate origin place entry)
  | .entry place old =>
    if asFolder && !entry.isFolder then .error .notFolder
    else if origin = place then .ok disk
    else if place.within origin then .error .notEmpty
    else if origin.within place then .error .invalid
    else if entry.isFolder then
      if !old.isFolder then .error .notFolder
      else if !(disk.below place).isEmpty then .error .notEmpty
      else .ok (disk.relocate origin place entry)
    else if old.isFolder then .error .isFolder
    else .ok (disk.relocate origin place entry)

end SiteScaffold.Disk

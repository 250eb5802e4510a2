/-
Edits of a disk: computations that read and change it and may fail. A failure
undoes nothing; what was changed before it stays changed, and the disk an edit
leaves behind is part of its outcome either way.
-/
import SiteScaffold.Disk.Access
import SiteScaffold.Failure

namespace SiteScaffold

/-- A computation on a disk that may fail. -/
abbrev Edit := ExceptT Failure (StateM Disk)

namespace Edit

/-- The outcome of an edit on a disk, and the disk it leaves. -/
def on {α : Type} (edit : Edit α) (disk : Disk) : Except Failure α × Disk := edit disk

/-- Gives up. -/
def fail {α : Type} (cause : Cause) : Edit α := throw ⟨[], cause⟩

/-- Reads off the disk. -/
def ask {α : Type} (question : Disk → α) : Edit α := do return question (← get)

/-- An edit as part of a wider activity, which a failure will name. -/
def during {α : Type} (doing : Text) (edit : Edit α) : Edit α :=
  tryCatch edit fun failure => throw (failure.within doing)

/-- Reads off the disk what may meet a fault. -/
def look {α : Type} (doing : Text) (question : Disk → Except Fault α) : Edit α := do
  match question (← get) with
  | .ok answer => return answer
  | .error fault => throw ⟨[doing], .system fault⟩

/-- Changes the disk in one step. -/
def change (doing : Text) (step : Disk → Except Fault Disk) : Edit Unit := do
  match step (← get) with
  | .ok disk => set disk
  | .error fault => throw ⟨[doing], .system fault⟩

-- ====================================================== single steps

/-- The text of a file. -/
def readText (path : Text) : Edit Text := look ("Failed to read " ++ path) (·.readText path)

/-- The content of a file. -/
def read (path : Text) : Edit Content := look ("Failed to read " ++ path) (·.read path)

/-- Writes a text file. -/
def writeText (path text : Text) : Edit Unit :=
  change ("Failed to write " ++ path) (·.write path (.text text))

/-- The names and entries in a folder. -/
def list (folder : Text) : Edit (List (Text × Entry)) :=
  look ("Failed to read directory: " ++ folder) (·.list folder)

/-- The entries at and below a folder, in the order of a walk. -/
def walk (folder : Text) : Edit (List Disk.Visit) := do
  match (← get).walk folder with
  | .ok visits => return visits
  | .error fault => throw ⟨["Failed to scan " ++ folder], .walk folder fault⟩

/-- Makes a folder and the folders above it. -/
def makeFolders (folder : Text) : Edit Unit := do
  let (outcome, disk) := (← get).makeFolders folder
  set disk
  match outcome with
  | .ok () => return
  | .error fault => throw ⟨["Failed to create directory: " ++ folder], .system fault⟩

/-- Removes a folder with everything below it. -/
def removeTree (doing folder : Text) : Edit Unit := do
  let (outcome, disk) := (← get).removeTree folder
  set disk
  match outcome with
  | .ok () => return
  | .error fault => throw ⟨[doing], .system fault⟩

/-- Moves an entry. -/
def move (source target : Text) : Edit Unit :=
  change ("Failed to move " ++ source ++ " to " ++ target) (·.move source target)

end Edit

end SiteScaffold

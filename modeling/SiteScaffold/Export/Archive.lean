/-
Packing an export. The archive stands beside the folder of the export and names
its entries by their paths from there.
-/
import SiteScaffold.Edit

namespace SiteScaffold.Export

/-- The archive of an export. -/
def archivePath (site : Text) : Text :=
  Path.withFileName site ((Path.fileName? site).getD "build" ++ ".zip")

/-- The name of an entry; archives write slashes only. -/
def entryName (relative : Text) : Text := relative.map fun c => if c = '\\' then '/' else c

/-- The path of an entry met on a walk, as it is seen from the folder that is walked. The
folder itself has none. -/
def inside? (site : Text) (visit : Disk.Visit) : Option Text :=
  match Path.below? site visit.path with
  | none | some [] => none
  | some relative => some relative

/-- What an archive holds for an entry met on a walk. Links are left out. -/
def packed? (disk : Disk) (site : Text) (visit : Disk.Visit) :
    Except Failure (Option (Text × Bytes)) :=
  match inside? site visit, visit.entry with
  | none, _ | _, .link _ => .ok none
  | some relative, .folder => .ok (some (entryName relative ++ "/", []))
  | some relative, .file _ _ =>
    match disk.read visit.path with
    | .ok content => .ok (some (entryName relative, content.bytes))
    | .error fault => .error ⟨["Failed to read " ++ visit.path], .system fault⟩

/-- Why a walk does not go on from an entry it met: a folder that cannot be listed. -/
def blocked? (disk : Disk) (site : Text) (visit : Disk.Visit) : Option Failure :=
  match visit.entry, disk.list visit.path with
  | .folder, .error fault => some ⟨["Failed to scan " ++ site], .walk visit.path fault⟩
  | _, _ => none

/-- What is stored of the entries met on a walk, after others with the names `before`, and why
that stops before the end, if it does. -/
def pack (disk : Disk) (site : Text) (before : List Text) :
    List Disk.Visit → List (Text × Bytes) × Option Failure
  | [] => ([], none)
  | visit :: rest =>
    match packed? disk site visit with
    | .error failure => ([], some failure)
    | .ok none => pack disk site before rest
    | .ok (some (name, bytes)) =>
      if name ∈ before then
        ([], some ⟨[], .other ("invalid Zip archive: Duplicate filename: " ++ name)⟩)
      else
        match blocked? disk site visit with
        | some failure => ([(name, bytes)], some failure)
        | none =>
          let (stored, stop) := pack disk site (name :: before) rest
          ((name, bytes) :: stored, stop)

/-- Finishes the archive at a path with the entries it holds. -/
def finishArchive (path : Text) (stored : List (Text × Bytes)) : Edit Unit :=
  Edit.change ("Failed to finish " ++ path) (·.write path (.archive stored))

/-- Packs an export; answers the path of the archive and the number of files in
it. The archive is an empty file while the export is walked, and if packing fails
it holds what was stored until then. -/
def archive (site : Text) : Edit (Text × Nat) := do
  let path := archivePath site
  Edit.change ("Failed to create " ++ path) (·.write path (.text []))
  let visits ← tryCatch (Edit.walk site) fun failure => do
    finishArchive path []
    throw failure
  let (stored, stop) := pack (← get) site [] visits
  finishArchive path stored
  match stop with
  | some failure => throw failure
  | none =>
    let files := visits.filter fun visit => visit.entry.isFile && (inside? site visit).isSome
    return (path, files.length)

end SiteScaffold.Export

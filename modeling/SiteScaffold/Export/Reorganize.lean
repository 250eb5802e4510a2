/-
Moving the files of an export into the folders of their kinds. Of two files of
one name the first one met is moved, and the other stays where it is.
-/
import SiteScaffold.Export.AssetKind
import SiteScaffold.Edit

namespace SiteScaffold.Export

/-- How many files were moved, and how many found their name taken. -/
structure Moves where
  moved : Nat
  skipped : Nat
  deriving Repr, DecidableEq

namespace Moves

def none : Moves := ⟨0, 0⟩

def add (a b : Moves) : Moves := ⟨a.moved + b.moved, a.skipped + b.skipped⟩

def total (all : List Moves) : Moves := all.foldl add none

end Moves

/-- Makes the folders of all kinds. -/
def prepareFolders (site : Text) : Edit Unit :=
  AssetKind.all.forM fun kind => Edit.makeFolders (kind.destination site)

/-- The files of a kind outside the folder of that kind, in the order of a
walk. -/
def filesOfKind (site : Text) (kind : AssetKind) : Edit (List Text) := do
  let visits ← Edit.walk site
  let strays := visits.filter fun visit =>
    visit.entry.isFile && (Path.parent? visit.path).map Path.parts
        ≠ some (Path.parts (kind.destination site))
      && AssetKind.of? visit.path = some kind
  return strays.map (·.path)

/-- Moves a file into a folder unless the folder has something of its
name. -/
def moveInto (folder file : Text) : Edit Moves := do
  match Path.fileName? file with
  | none => return .none
  | some name =>
    let target := Path.join folder name
    if ← Edit.ask (·.holds target) then return ⟨0, 1⟩
    Edit.move file target
    return ⟨1, 0⟩

/-- Moves files into a folder one after the other. -/
def moveAll (folder : Text) (files : List Text) : Edit Moves := do
  return .total (← files.mapM (moveInto folder))

/-- The folder the server keeps script modules in. -/
def modulesFolder (site : Text) : Text := Path.join (AssetKind.assetsFolder site) "controllers"

/-- Moves the script modules that are left among the scripts and removes their
folder. -/
def foldModules (site : Text) : Edit Moves := do
  let folder := modulesFolder site
  if !(← Edit.ask (·.isFolder folder)) then return .none
  let entries ← Edit.list folder
  let files := (entries.filter (·.2.isFile)).map fun (name, _) => Path.join folder name
  let moves ← moveAll (AssetKind.script.destination site) files
  Edit.removeTree ("Failed to remove " ++ folder) folder
  return moves

/-- Moves every asset of an export into the folder of its kind. -/
def reorganize (site : Text) : Edit Moves := do
  let moves ← AssetKind.all.mapM fun kind => do
    moveAll (kind.destination site) (← filesOfKind site kind)
  let rest ← foldModules site
  return (Moves.total moves).add rest

end SiteScaffold.Export

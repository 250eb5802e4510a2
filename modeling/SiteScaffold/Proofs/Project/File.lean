/-
The files of a project that the commands with a name write and remove, by the names that lead
to them from the folder of the project. Whatever the operator wrote for the name, the path of
a file goes on below that folder by these names (`File.path_eq`), so the file is right in the
folder that its kind is kept in (`File.parent?_path`, `File.fileName?_path`). Where there are
no links the path leads to its place and nowhere else (`File.eq_place`).
-/
import SiteScaffold.Proofs.Project.AppFile

namespace SiteScaffold.Project

open Disk (Grown Tree)
open Path (IsName IsPlain under)

/-- The files that commands with a name write and remove. -/
inductive File where
  | app (file : AppFile)
  | stimulus (name : Text)
  | routes
  deriving DecidableEq

namespace File

/-- The names that lead to the folder of a file from the folder of the project. -/
def folder : File → Key
  | app file => "app".toList :: file.folder
  | stimulus _ => ["app", "javascript", "controllers"]
  | routes => ["config"]

def name : File → Text
  | app file => file.name
  | stimulus name => name ++ "_controller.js"
  | routes => "routes.rb"

/-- The names that lead to a file. -/
def place (file : File) : Key := file.folder ++ [file.name]

def path (project : Project) : File → Text
  | app file => file.path project
  | stimulus name => project.stimulus name
  | routes => project.routes

/-- Whether what a file is named for has a proper name. -/
def Named : File → Prop
  | app file => file.Named
  | stimulus name => Name.IsNormal name
  | routes => True

/-- The names of the folders that the files are kept in. -/
def folderNames : List Text :=
  ["app", "controllers", "views", "home", "layouts", "assets", "stylesheets", "javascript", "config"]

variable {project : Project} {disk : Disk} {file : File} {j top : Key} {e : Entry} {follow : Bool}

/-- They can be used. -/
theorem isStep_folderNames : ∀ n ∈ folderNames, Disk.IsStep n ∧ '/' ∉ n := by decide

theorem mem_folderNames (file : File) : ∀ n ∈ file.folder, n ∈ folderNames := by
  cases file with
  | app file =>
      cases file with
      | controller | view page | stylesheet page | layout name => simp [folder, AppFile.folder, folderNames]
  | stimulus name | routes => simp [folder, folderNames]

theorem folder_ne_nil (file : File) : file.folder ≠ [] := by
  cases file with
  | app file | stimulus name | routes => exact List.cons_ne_nil _ _

theorem isPlain_folder (file : File) : ∀ n ∈ file.folder, IsPlain n := by
  intro n hn
  obtain ⟨hstep, hslash⟩ := isStep_folderNames n (file.mem_folderNames n hn)
  exact ⟨hstep.isName, hslash⟩

-- ======================================================================= the names

theorem isPlain_stimulus {name : Text} (h : Name.IsNormal name) : IsPlain (stimulus name).name := by
  have hmem : '_' ∈ name ++ "_controller.js".toList := List.mem_append_right _ (by decide)
  have hother : ∀ t : Text, '_' ∉ t → name ++ "_controller.js".toList ≠ t := by
    rintro t ht rfl
    exact ht hmem
  refine ⟨⟨?_, hother "..".toList (by decide)⟩, ?_⟩
  · exact Bool.or_eq_false_iff.2 ⟨decide_eq_false (hother [] (by decide)), decide_eq_false (hother ".".toList (by decide))⟩
  · exact fun hslash => (List.mem_append.1 hslash).elim (h.notMem (by decide)) (by decide)

theorem isPlain_name (h : file.Named) : IsPlain file.name := by
  cases file with
  | app file => exact AppFile.isPlain_name h
  | stimulus name => exact isPlain_stimulus h
  | routes => exact ⟨⟨by decide, by decide⟩, by decide⟩

theorem isPlain (h : file.Named) : ∀ n ∈ file.place, IsPlain n := by
  intro n hn
  rcases List.mem_append.1 hn with hn | hn
  · exact file.isPlain_folder n hn
  · rw [List.mem_singleton.1 hn]
    exact isPlain_name h

-- ======================================================================= the path

theorem path_eq (h : file.Named) (project : Project) : file.path project = under project.root file.place := by
  cases file with
  | app file =>
      rw [path, AppFile.path_eq h]
      exact (AppFile.under_app project (by simp [AppFile.place]) (AppFile.isPlain h)).symm
  | stimulus name => exact Path.join_under (folder_ne_nil (stimulus name)) (isPlain h)
  | routes => rfl

/-- Its names are those of the folder of the project and then those of its place. -/
theorem segments_path (h : file.Named) (project : Project) :
    Path.segments (file.path project) = (Path.lead project.root ++ file.folder) ++ [file.name] := by
  rw [path_eq h, Path.segments_under (by simp [place]) (isPlain h), place, List.append_assoc]

/-- The folder of the project is reached where a file of it is. -/
theorem exists_reaches {r : Disk.Located} (h : file.Named) (hlocate : disk.locate follow (file.path project) = .ok r) :
    ∃ left there, Disk.Reaches disk 40 [] (Path.lead project.root) left there := by
  obtain ⟨-, hleads⟩ := Disk.locate_eq_ok_iff.1 hlocate
  rw [segments_path h, List.append_assoc] at hleads
  obtain ⟨left, there, hreaches, -⟩ := hleads.split
    (Disk.all_append_single (isPlain_name h).toIsName file.folder)
  exact ⟨left, there, hreaches⟩

/-- The folder that a file is kept in is the one right above it. -/
theorem parent?_path (h : file.Named) (project : Project) :
    Path.parent? (file.path project) = some (under project.root file.folder) := by
  rw [path_eq h]
  exact Path.parent?_under_concat file.folder_ne_nil (isPlain h)

theorem fileName?_path (h : file.Named) (project : Project) : Path.fileName? (file.path project) = some file.name := by
  rw [path_eq h]
  exact Path.fileName?_under (isPlain h)

/-- Where there are no links, a file is at its place if it is anywhere. -/
theorem eq_place (h : file.Named) (tree : Tree project.root top disk)
    (hlocate : disk.locate follow (file.path project) = .ok (.entry j e)) : j = top ++ file.place := by
  rw [path_eq h] at hlocate
  exact ((tree.locate_entry (by simp [place]) (isPlain h)).1 hlocate).2.1

/-- Making the folder of a file makes folders of these names, if any. -/
theorem grown_makeFolders (tree : Tree project.root top disk) (file : File) :
    Grown folderNames disk (disk.makeFolders (under project.root file.folder)).2 :=
  tree.grown_makeFolders isStep_folderNames file.folder_ne_nil file.mem_folderNames

end File

end SiteScaffold.Project

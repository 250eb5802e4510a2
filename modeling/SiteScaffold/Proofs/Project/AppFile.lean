/-
The files of an application that pages and layouts are made of, by the names that lead to
them from the folder of the application. The path of a file goes on below that folder by
these names (`AppFile.path_eq`), and no two files have the same (`AppFile.place_inj`).
-/
import SiteScaffold.Proofs.Disk.Tree
import SiteScaffold.Proofs.Project

namespace SiteScaffold.Project

open Path (IsPlain under)
open Disk (Grown Tree)
open Part (app)

variable {project : Project} {disk : Disk}

/-- The files of an application that pages and layouts are made of. -/
inductive AppFile where
  | controller
  | view (page : Text)
  | stylesheet (page : Text)
  | layout (name : Text)
  deriving DecidableEq

namespace AppFile

/-- The names that lead to the folder of a file from the folder of the application. -/
def folder : AppFile → Key
  | controller => ["controllers"]
  | view _ => ["views", "home"]
  | stylesheet _ => ["assets", "stylesheets"]
  | layout _ => ["views", "layouts"]

def name : AppFile → Text
  | controller => "home_controller.rb"
  | view page => page ++ viewSuffix
  | stylesheet page => page ++ ".css"
  | layout name => name ++ viewSuffix

/-- The names that lead to a file. -/
def place (file : AppFile) : Key := file.folder ++ [file.name]

def path (project : Project) : AppFile → Text
  | controller => project.homeController
  | view page => project.view page
  | stylesheet page => project.stylesheet page
  | layout name => project.layout name

/-- Whether what a file is named for has a proper name. -/
def Named : AppFile → Prop
  | controller => True
  | view page => Name.IsNormal page
  | stylesheet page => Name.IsNormal page
  | layout name => Name.IsNormal name

/-- The folders that are made for files. -/
def folderNames : List Text := ["views", "home", "layouts", "assets", "stylesheets"]

variable {file file' : AppFile}

/-- The folders of the files. -/
def folders : List Key :=
  [["controllers"], ["views", "home"], ["assets", "stylesheets"], ["views", "layouts"]]

theorem folder_mem (file : AppFile) : file.folder ∈ folders := by
  cases file with
  | controller | view page | stylesheet page | layout name => simp [folder, folders]

theorem isPlain_folder (file : AppFile) : ∀ n ∈ file.folder, IsPlain n := by
  have hproper : ∀ names ∈ folders, ∀ n ∈ names, Path.isIdle n = false ∧ n ≠ "..".toList ∧ '/' ∉ n := by
    decide
  intro n hn
  obtain ⟨hidle, hup, hslash⟩ := hproper _ file.folder_mem n hn
  exact ⟨⟨hidle, hup⟩, hslash⟩

theorem folder_ne_nil (file : AppFile) : file.folder ≠ [] := by
  cases file with
  | controller | view page | stylesheet page | layout name => exact List.cons_ne_nil _ _

theorem isPlain_name (h : file.Named) : IsPlain file.name := by
  cases file with
  | controller => exact ⟨⟨by decide, by decide⟩, by decide⟩
  | view page | layout page => exact ⟨Part.isName_fileName page .view, Part.slash_notMem_fileName h .view⟩
  | stylesheet page =>
      exact ⟨Part.isName_fileName page .stylesheet, Part.slash_notMem_fileName h .stylesheet⟩

theorem isPlain (h : file.Named) : ∀ n ∈ file.place, IsPlain n := by
  intro n hn
  rcases List.mem_append.1 hn with hn | hn
  · exact isPlain_folder file n hn
  · rw [List.mem_singleton.1 hn]
    exact isPlain_name h

theorem place_inj (h : file.place = file'.place) : file = file' := by
  obtain ⟨hfolder, hname⟩ := List.append_inj' h rfl
  have hname : file.name = file'.name := List.singleton_inj.1 hname
  cases file with
  | controller =>
      cases file' with
      | controller => rfl
      | view page | stylesheet page | layout page => cases hfolder
  | view page =>
      cases file' with
      | view page' => rw [List.append_cancel_right hname]
      | controller | stylesheet page' | layout page' => cases hfolder
  | stylesheet page =>
      cases file' with
      | stylesheet page' => rw [List.append_cancel_right hname]
      | controller | view page' | layout page' => cases hfolder
  | layout page =>
      cases file' with
      | layout page' => rw [List.append_cancel_right hname]
      | controller | view page' | stylesheet page' => cases hfolder

theorem under_app (project : Project) {names : List Text} (hne : names ≠ []) (hnames : ∀ n ∈ names, IsPlain n) :
    under project.root ("app".toList :: names) = under (app project) names := by
  have hplain : ∀ n ∈ ["app".toList] ++ names, IsPlain n := by
    intro n hn
    rcases List.mem_append.1 hn with hn | hn
    · rw [List.mem_singleton.1 hn]
      exact ⟨⟨by decide, by decide⟩, by decide⟩
    · exact hnames n hn
  rw [← List.singleton_append, ← Path.under_under (by simp) hne hplain, Path.under_singleton]
  rfl

/-- The views are listed in the folder that they are kept in. -/
theorem path_homeViews (project : Project) (page : Text) :
    project.path homeViewsName = under (app project) (view page).folder :=
  under_app project (view page).folder_ne_nil (isPlain_folder (view page))

theorem path_eq (h : file.Named) (project : Project) : file.path project = under (app project) file.place := by
  have hroot : file.path project = under project.root ("app".toList :: file.place) := by
    have hne : "app".toList :: file.folder ≠ [] := List.cons_ne_nil _ _
    have hplain : ∀ n ∈ ("app".toList :: file.folder) ++ [file.name], IsPlain n := by
      intro n hn
      rcases List.mem_cons.1 hn with rfl | hn
      · exact ⟨⟨by decide, by decide⟩, by decide⟩
      · exact isPlain h n hn
    cases file with
    | controller => rfl
    | view page | stylesheet page | layout name => exact Path.join_under hne hplain
  rw [hroot, under_app project (by simp [place]) (isPlain h)]

/-- The names of the folders can be used. -/
theorem isStep_folderNames : ∀ n ∈ folderNames, Disk.IsStep n ∧ '/' ∉ n := by
  have hproper : ∀ n ∈ folderNames, Path.isIdle n = false ∧ n ≠ "..".toList
      ∧ Text.byteSize n ≤ Disk.longestName ∧ '/' ∉ n := by
    decide
  intro n hn
  obtain ⟨hidle, hup, hsize, hslash⟩ := hproper n hn
  exact ⟨⟨hidle, hup, hsize⟩, hslash⟩

/-- Making the folder of a generated file makes folders of these names. -/
theorem grown_makeFolders {top : Key} (tree : Tree (app project) top disk) (hfile : file ≠ .controller) :
    Grown folderNames disk (disk.makeFolders (under (app project) file.folder)).2 := by
  refine tree.grown_makeFolders isStep_folderNames file.folder_ne_nil ?_
  cases file with
  | controller => exact absurd rfl hfile
  | view page | stylesheet page | layout name => simp [folder, folderNames]

end AppFile

end SiteScaffold.Project

/-
The files that a project keeps for a page: a view and a stylesheet, each in a folder of
its kind two below the folder of the application. The two kinds differ in the names of
the folders and in the end of the file's name only (`Part.path_eq`), and different pages
and kinds have files of different names (`Part.fileName_inj`).

A project that opens has a folder to make those folders in (`exists_reaches`), and a file
that is not there can come to be only by being written, unless a link on the way to it
leads nowhere (`Part.vacant`).
-/
import SiteScaffold.Project
import SiteScaffold.Proofs.Disk.Stands
import SiteScaffold.Proofs.Edit
import SiteScaffold.Proofs.Text.Class
import SiteScaffold.Proofs.Text.Lines

namespace SiteScaffold.Project

open Disk (Reaches Grown Vacant)
open Path (IsName child)

variable {project : Project} {disk disk' : Disk} {page page' : Text}

-- ====================================================================== opened or not

theorem on_open
    (h : (disk.isFile project.routes && disk.isFile (project.path manifestName)) = true) :
    (Project.open project.root).on disk = (.ok project, disk) := by
  unfold Project.open
  rw [Edit.on_bind_ok (Edit.on_ask _)]
  show ((if disk.isFile project.routes && disk.isFile (project.path manifestName) then
    pure project else Edit.fail (.notAProject project.root)) : Edit Project).on disk = _
  rw [if_pos h]
  rfl

/-- A project that opens has a file of routes and a manifest. -/
theorem on_open_eq_ok {opened : Project} :
    (Project.open project.root).on disk = (.ok opened, disk') ↔ opened = project ∧ disk' = disk
      ∧ (disk.isFile project.routes && disk.isFile (project.path manifestName)) = true := by
  refine ⟨fun h => ?_, ?_⟩
  · by_cases hfiles : (disk.isFile project.routes && disk.isFile (project.path manifestName)) = true
    · rw [on_open hfiles] at h
      cases h
      exact ⟨rfl, rfl, hfiles⟩
    · unfold Project.open at h
      rw [Edit.on_bind_ok (Edit.on_ask _), if_neg hfiles] at h
      cases h
  · rintro ⟨rfl, rfl, hfiles⟩
    exact on_open hfiles

-- ======================================================================= the folder

/-- Paths in a project have their steps behind those of its folder. -/
theorem exists_segments_path (project : Project) :
    ∃ steps, ∀ relative, Path.isAbsolute relative = false →
      Path.segments (project.path relative) = steps ++ Path.segments relative := by
  obtain ⟨steps, hsteps⟩ := Path.exists_segments_stem project.root
  refine ⟨steps, fun relative hrelative => ?_⟩
  rw [path, Path.join_eq hrelative]
  exact hsteps relative

/-- The folder of a project that opens can be reached. -/
theorem exists_reaches {steps : List Text} {e : Entry} {k : Key}
    (hsteps : ∀ relative, Path.isAbsolute relative = false →
      Path.segments (project.path relative) = steps ++ Path.segments relative)
    (h : disk.locate true project.routes = .ok (.entry k e)) :
    ∃ left there, Reaches disk 40 [] steps left there := by
  obtain ⟨-, hleads⟩ := Disk.locate_eq_ok_iff.1 h
  rw [routes, hsteps routesName (by decide)] at hleads
  obtain ⟨left, there, hreaches, -⟩ := hleads.split (by decide)
  exact ⟨left, there, hreaches⟩

-- ======================================================================== the files

/-- The files that are kept for a page. -/
inductive Part where
  | view
  | stylesheet
  deriving DecidableEq

namespace Part

/-- The path of a page's file. -/
def path (project : Project) (page : Text) : Part → Text
  | view => project.view page
  | stylesheet => project.stylesheet page

/-- The folder of a kind of files, as two names below the folder of the application. -/
def folder : Part → Text × Text
  | view => ("views", "home")
  | stylesheet => ("assets", "stylesheets")

/-- What the names of the files end in. -/
def suffix : Part → Text
  | view => ".html.erb"
  | stylesheet => ".css"

/-- The name of a page's file. -/
def fileName (page : Text) (part : Part) : Text := page ++ part.suffix

/-- The folders that are made for files. -/
def folderNames : List Text := ["app", "views", "home", "assets", "stylesheets"]

variable {part part' : Part}

theorem isName_folder (part : Part) : IsName part.folder.1 ∧ IsName part.folder.2 := by
  cases part with
  | view => exact ⟨⟨by decide, by decide⟩, ⟨by decide, by decide⟩⟩
  | stylesheet => exact ⟨⟨by decide, by decide⟩, ⟨by decide, by decide⟩⟩

theorem slash_notMem_folder (part : Part) : '/' ∉ part.folder.1 ∧ '/' ∉ part.folder.2 := by
  cases part with
  | view => decide
  | stylesheet => decide

theorem mem_folderNames (part : Part) :
    "app".toList ∈ folderNames ∧ part.folder.1 ∈ folderNames ∧ part.folder.2 ∈ folderNames := by
  cases part with
  | view => decide
  | stylesheet => decide

theorem suffix_eq (part : Part) : ∃ c s, part.suffix = '.' :: c :: s ∧ c ≠ '.' ∧ '/' ∉ part.suffix := by
  cases part with
  | view => exact ⟨'h', "tml.erb".toList, rfl, by decide, by decide⟩
  | stylesheet => exact ⟨'c', "ss".toList, rfl, by decide, by decide⟩

theorem isName_fileName (page : Text) (part : Part) : IsName (fileName page part) := by
  obtain ⟨c, s, hsuffix, hc, -⟩ := part.suffix_eq
  have hlong : 2 ≤ (fileName page part).length := by
    rw [fileName, hsuffix, List.length_append, List.length_cons, List.length_cons]
    omega
  constructor
  · rw [Path.isIdle, Bool.or_eq_false_iff, decide_eq_false_iff_not, decide_eq_false_iff_not]
    constructor
    · intro heq
      rw [heq] at hlong
      cases hlong
    · intro heq
      rw [heq] at hlong
      simp at hlong
  · intro heq
    have hdots : page ++ '.' :: c :: s = ['.', '.'] := by
      rw [← hsuffix]
      exact heq
    cases page with
    | nil =>
        obtain ⟨-, htail⟩ := List.cons_eq_cons.1 hdots
        obtain ⟨rfl, -⟩ := List.cons_eq_cons.1 htail
        exact hc rfl
    | cons d page =>
        have hlength := congrArg List.length hdots
        simp at hlength
        omega

theorem slash_notMem_fileName (hpage : Name.IsNormal page) (part : Part) :
    '/' ∉ fileName page part := by
  obtain ⟨-, -, -, -, hsuffix⟩ := part.suffix_eq
  rw [fileName, List.mem_append, not_or]
  exact ⟨hpage.notMem (by decide), hsuffix⟩

/-- Files do not have names of folders. -/
theorem fileName_notMem (page : Text) (part : Part) : fileName page part ∉ folderNames := by
  intro hmem
  have hdot : ∀ name ∈ folderNames, '.' ∉ name := by decide
  obtain ⟨c, s, hsuffix, -, -⟩ := part.suffix_eq
  refine hdot _ hmem ?_
  rw [fileName, hsuffix]
  simp

/-- Files of different pages or kinds have different names. -/
theorem fileName_inj (hpage : Name.IsNormal page) (hpage' : Name.IsNormal page')
    (h : fileName page part = fileName page' part') : page = page' ∧ part = part' := by
  have hdots : ∀ part : Part, ∀ c ∈ part.suffix.head?, Name.isNameChar c = false := by
    intro part c hc
    obtain ⟨d, s, hsuffix, -, -⟩ := part.suffix_eq
    rw [hsuffix, List.head?_cons, Option.mem_some_iff] at hc
    subst hc
    decide
  obtain ⟨hsame, hsuffix⟩ := Text.append_inj_of_span h hpage.isNameChar hpage'.isNameChar
    (hdots part) (hdots part')
  refine ⟨hsame, ?_⟩
  cases part with
  | view =>
      cases part' with
      | view => rfl
      | stylesheet => cases hsuffix
  | stylesheet =>
      cases part' with
      | view => cases hsuffix
      | stylesheet => rfl

-- ==================================================================== the way there

/-- The folder of the application. -/
def app (project : Project) : Text := project.path "app"

/-- The folder that a file is kept in. -/
def folderPath (project : Project) (part : Part) : Text :=
  child (child (app project) part.folder.1) part.folder.2

/-- The folder of a kind of files, from the folder of the project on. -/
def base (part : Part) : Text := child (child "app" part.folder.1) part.folder.2

theorem path_base (project : Project) (part : Part) :
    project.path part.base = folderPath project part := by
  have hrelative : Path.isAbsolute part.base = false ∧ Path.isAbsolute "app" = false := by
    cases part with
    | view => decide
    | stylesheet => decide
  rw [folderPath, app, Project.path, Project.path, Path.join_eq hrelative.1,
    Path.join_eq hrelative.2]
  simp only [base, child, List.append_assoc, List.cons_append]

theorem path_eq_join (project : Project) (page : Text) (part : Part) :
    part.path project page = Path.join (project.path part.base) (fileName page part) := by
  cases part with
  | view => rfl
  | stylesheet => rfl

/-- The steps to a page's file. -/
theorem segments_folderPath {steps : List Text}
    (hsteps : ∀ relative, Path.isAbsolute relative = false →
      Path.segments (project.path relative) = steps ++ Path.segments relative) (part : Part) :
    Path.segments (app project) = steps ++ ["app".toList]
      ∧ Path.segments (child (app project) part.folder.1)
        = steps ++ ["app".toList] ++ [part.folder.1]
      ∧ Path.segments (folderPath project part)
        = steps ++ ["app".toList] ++ [part.folder.1] ++ [part.folder.2] := by
  have happ : Path.segments (app project) = steps ++ ["app".toList] := hsteps _ (by decide)
  obtain ⟨hfirst, hsecond⟩ := slash_notMem_folder part
  have hmiddle := @Path.segments_child (app project) _ hfirst
  rw [happ] at hmiddle
  refine ⟨happ, hmiddle, ?_⟩
  rw [folderPath, Path.segments_child hsecond, hmiddle]

theorem path_eq (hpage : Name.IsNormal page) (project : Project) (part : Part) :
    part.path project page = child (folderPath project part) (fileName page part) := by
  obtain ⟨steps, hsteps⟩ := exists_segments_path project
  obtain ⟨-, -, hfolder⟩ := segments_folderPath hsteps part
  have hrelative : Path.isAbsolute (fileName page part) = false := by
    have hslash := slash_notMem_fileName hpage part
    rw [Path.isAbsolute, decide_eq_false_iff_not]
    intro hhead
    exact hslash (List.mem_of_mem_head? hhead)
  have hname := (isName_folder part).2
  rw [path_eq_join, path_base]
  exact Path.join_child hrelative (Path.ne_nil_of_segments hfolder hname)
    (Path.getLast?_ne_slash hfolder hname)

theorem segments_path {steps : List Text}
    (hsteps : ∀ relative, Path.isAbsolute relative = false →
      Path.segments (project.path relative) = steps ++ Path.segments relative)
    (hpage : Name.IsNormal page) (part : Part) :
    Path.segments (part.path project page)
      = steps ++ ["app".toList] ++ [part.folder.1] ++ [part.folder.2] ++ [fileName page part] := by
  obtain ⟨-, -, hfolder⟩ := segments_folderPath hsteps part
  rw [path_eq hpage, Path.segments_child (slash_notMem_fileName hpage part), hfolder]

theorem exists_segments (hpage : Name.IsNormal page) (project : Project) (part : Part) :
    ∃ steps, Path.segments (part.path project page) = steps ++ [fileName page part] := by
  obtain ⟨steps, hsteps⟩ := exists_segments_path project
  exact ⟨_, segments_path hsteps hpage part⟩

/-- The folder above a page's file is the one that its kind is kept in. -/
theorem parent?_path (hpage : Name.IsNormal page) (project : Project) (part : Part) :
    Path.parent? (part.path project page) = some (folderPath project part) := by
  obtain ⟨steps, hsteps⟩ := exists_segments_path project
  obtain ⟨-, -, hfolder⟩ := segments_folderPath hsteps part
  rw [path_eq hpage]
  exact Path.parent?_child hfolder (isName_folder part).2 (isName_fileName page part)
    (slash_notMem_fileName hpage part)

-- ============================================================== made and not there yet

/-- Making the folder of a kind of files makes folders of these names. -/
theorem grown_makeFolders {e : Entry} {k : Key} (hclosed : disk.Closed)
    (h : disk.locate true project.routes = .ok (.entry k e)) (part : Part) :
    Grown folderNames disk (disk.makeFolders (folderPath project part)).2 := by
  obtain ⟨steps, hsteps⟩ := exists_segments_path project
  obtain ⟨left, there, hreaches⟩ := exists_reaches hsteps h
  obtain ⟨hfirst, hsecond⟩ := isName_folder part
  have happ : Path.segments (app project) = steps ++ ["app".toList] := hsteps _ (by decide)
  exact Disk.grown_makeFolders hclosed happ hreaches ⟨by decide, by decide, by decide⟩ hfirst hsecond
    (slash_notMem_folder part) (mem_folderNames part)

/-- The paths on the way to a page's file, from the folder of the application on. -/
def ways (project : Project) (part : Part) : List Text :=
  [app project, child (app project) part.folder.1, folderPath project part]

/-- A page's file that is not there is not behind folders that are missing either, if no
link on the way to it leads nowhere. -/
theorem vacant {e : Entry} {k : Key} (hclosed : disk.Closed)
    (h : disk.locate true project.routes = .ok (.entry k e)) (hpage : Name.IsNormal page)
    (hways : ∀ way ∈ ways project part, ¬ disk.Dangles way)
    (hfile : ¬ disk.Dangles (part.path project page))
    (hholds : disk.holds (part.path project page) = false) :
    Vacant folderNames disk (part.path project page) := by
  obtain ⟨steps, hsteps⟩ := exists_segments_path project
  obtain ⟨left, there, hreaches⟩ := exists_reaches hsteps h
  obtain ⟨happ, hmiddle, hfolder⟩ := segments_folderPath hsteps part
  have hpath := segments_path hsteps hpage part
  simp only [List.append_assoc, List.cons_append, List.nil_append] at happ hmiddle hfolder hpath
  have hnames : ∀ step ∈ ["app".toList, part.folder.1, part.folder.2], IsName step := by
    intro step hstep
    obtain ⟨hfirst, hsecond⟩ := isName_folder part
    simp only [List.mem_cons, List.not_mem_nil, or_false] at hstep
    rcases hstep with rfl | rfl | rfl
    · exact ⟨by decide, by decide⟩
    · exact hfirst
    · exact hsecond
  have hlinks : ∀ way ∈ ways project part ++ [part.path project page], ¬ disk.Dangles way := by
    intro way hway
    rcases List.mem_append.1 hway with hway | hway
    · exact hways way hway
    · rw [List.mem_singleton.1 hway]
      exact hfile
  have hstart : ∀ base name : Text, base <+: child base name := fun base name =>
    List.prefix_append base ('/' :: name)
  refine Disk.vacant_of_holds hclosed hpath (isName_fileName page part) (fileName_notMem page part)
    hnames hreaches (fun mid step rest heq => ?_) hlinks hholds
  match mid, heq with
  | [], heq =>
      obtain ⟨rfl, -⟩ := List.cons_eq_cons.1 heq
      refine ⟨app project, by simp [ways], ?_, happ⟩
      rw [path_eq hpage]
      exact ((hstart _ _).trans (hstart _ _)).trans (hstart _ _)
  | [_], heq =>
      simp only [List.cons_append, List.nil_append, List.cons.injEq] at heq
      obtain ⟨rfl, rfl, -⟩ := heq
      refine ⟨child (app project) part.folder.1, by simp [ways], ?_, hmiddle⟩
      rw [path_eq hpage]
      exact (hstart _ _).trans (hstart _ _)
  | [_, _], heq =>
      simp only [List.cons_append, List.nil_append, List.cons.injEq] at heq
      obtain ⟨rfl, rfl, rfl, -⟩ := heq
      refine ⟨folderPath project part, by simp [ways], ?_, hfolder⟩
      rw [path_eq hpage]
      exact hstart _ _
  | [_, _, _], heq =>
      simp only [List.cons_append, List.nil_append, List.cons.injEq] at heq
      obtain ⟨rfl, rfl, rfl, rfl, -⟩ := heq
      exact ⟨part.path project page, by simp, List.prefix_refl _, hpath⟩
  | _ :: _ :: _ :: _ :: mid, heq => simp at heq

end Part

end SiteScaffold.Project

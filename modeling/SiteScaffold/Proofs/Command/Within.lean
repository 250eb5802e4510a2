/-
Commands with a name stay among the files of that name. Whatever the operator wrote, and
however the command ends, a project without links keeps every file but those that are named
after it and those that host parts of it (`Command.files?`), and new folders apart nothing
comes to be (`Within`). Each edit of a command keeps to that (`stays_placeNew`,
`stays_discard`, `stays_insert`, `stays_remove`), and nothing else in a command touches the
disk, so the command does (`stays_perform`).

A name is normalised before anything is done with it, so it is the name of a file and not a
path, and the searches for it take it literally (`takesLiterally_of_mem`).
-/
import SiteScaffold.Command.Perform
import SiteScaffold.Proofs.Command.Layouts
import SiteScaffold.Proofs.Command.PageRun
import SiteScaffold.Proofs.Pattern.Literal
import SiteScaffold.Proofs.Project.File

namespace SiteScaffold.Command

open Disk (Change Grown HoldsText IsStep Refilled Tree)
open Patch
open Pattern
open Project (AppFile File)
open Work (Carries)

variable {α : Type} {project : Project} {top k : Key} {files : List File} {file : File}
  {before disk disk' : Disk} {what content path t t' : Text} {setting : Setting}

-- ======================================================================== the files

/-- The files that a command with a name may write and remove; nothing if a command has no
name. -/
def files? : Command → Option (List File)
  | .addPage name | .removePage name =>
    let page := Name.normalize name
    some [.app (.view page), .app (.stylesheet page), .app .controller, .routes]
  | .addStimulus name | .removeStimulus name => some [.stimulus (Name.normalize name)]
  | .addLayout name _ | .removeLayout name => some [.app (.layout (Name.normalize name)), .app .controller]
  | .new _ _ | .addPin _ | .removePin _ | .run | .build _ | .version => none

/-- They have proper names. -/
theorem named_of_files? {command : Command} (h : command.files? = some files) : ∀ file ∈ files, file.Named := by
  have hnormal : ∀ raw, Name.IsNormal (Name.normalize raw) := fun raw => ⟨raw, rfl⟩
  cases command with
  | addPage raw | removePage raw =>
      obtain rfl := Option.some.inj h
      simp [File.Named, AppFile.Named, hnormal]
  | addStimulus raw | removeStimulus raw =>
      obtain rfl := Option.some.inj h
      simp [File.Named, hnormal]
  | addLayout raw view | removeLayout raw =>
      obtain rfl := Option.some.inj h
      simp [File.Named, AppFile.Named, hnormal]
  | new name bare | addPin package | removePin package | run | build zip | version => cases h

-- ================================================================== what is searched

/-- The searches that the commands make for a name in the host files and in the views, each
with the spellings of a name that it looks for. -/
def nameSearches : List ((Text → Pattern) × (Text → List Text)) :=
  [ (ControllerAction.definition, fun name => [name]),
    (ControllerAction.block, fun name => [name]),
    (LayoutDirective.declaration, fun name => [name]),
    (LayoutDirective.directiveLine, fun name => [name]),
    (LayoutDirective.directiveFor, fun name => [name]),
    (Route.pageLine, fun name => [name]),
    (Usage.inAttribute, fun name => [name, Name.stimulusIdentifier name]),
    (Usage.inHelper, fun name => [name, Name.stimulusIdentifier name]) ]

theorem takesLiterally_quoted : TakesLiterally (fun name => [name]) quoted :=
  .before (.after takesLiterally_literal _) _

theorem takesLiterally_head : TakesLiterally (fun name => [name]) ControllerAction.head :=
  .before (.after takesLiterally_literal _) _

theorem takesLiterally_scopeOf : TakesLiterally (fun name => [name]) LayoutDirective.scopeOf :=
  have hscope : ∀ first : Pattern, TakesLiterally (fun name => [name]) fun name => first ++ literal name ++ boundary :=
    fun _ => .before (.after takesLiterally_literal _) _
  .or (.or (hscope _) (hscope _)) (hscope _)

theorem takesLiterally_tokensWith :
    TakesLiterally (fun name => [name, Name.stimulusIdentifier name]) Usage.tokensWith :=
  .before (.before (.after (takesLiterally_either id Name.stimulusIdentifier) _) _) _

/-- A name is searched for literally. -/
theorem takesLiterally_of_mem {search : (Text → Pattern) × (Text → List Text)} (h : search ∈ nameSearches) :
    TakesLiterally search.2 search.1 := by
  have hdeclaration : TakesLiterally (fun name => [name]) LayoutDirective.declaration :=
    .after takesLiterally_quoted _
  simp only [nameSearches, List.mem_cons, List.not_mem_nil, or_false] at h
  rcases h with rfl | rfl | rfl | rfl | rfl | rfl | rfl | rfl
  · exact .before (.before takesLiterally_head _) _
  · iterate 8 apply TakesLiterally.before
    exact takesLiterally_head
  · exact hdeclaration
  · exact .before (.before (.after hdeclaration _) _) _
  · exact .after takesLiterally_scopeOf _
  · exact .before (.before (.before (.after takesLiterally_literal _) _) _) _
  · exact .after takesLiterally_tokensWith _
  · exact .before (.before (.after takesLiterally_tokensWith _) _) _

-- ========================================================================= the disk

/-- Whether a project without links differs from what it was before at these files alone, but
for folders that are new. -/
structure Within (project : Project) (top : Key) (files : List File) (before disk : Disk) : Prop where
  tree : Tree project.root top disk
  same : ∀ k, (∀ file ∈ files, k ≠ top ++ file.place) → disk.lookup k = before.lookup k
    ∨ before.lookup k = none ∧ disk.lookup k = some .folder

namespace Within

theorem refl (tree : Tree project.root top disk) : Within project top files disk disk :=
  ⟨tree, fun _ _ => .inl rfl⟩

variable (h : Within project top files before disk)

include h

theorem grown (hgrown : Grown File.folderNames disk disk') : Within project top files before disk' where
  tree := h.tree.grown hgrown File.isStep_folderNames
  same := by
    intro k hk
    cases hlookup : disk.lookup k with
    | some e =>
        rw [hgrown.kept k e hlookup, ← hlookup]
        exact h.same k hk
    | none =>
        have hbefore : before.lookup k = none := by
          rcases h.same k hk with hsame | ⟨hnone, -⟩
          · rw [← hsame, hlookup]
          · exact hnone
        cases hlookup' : disk'.lookup k with
        | none => exact .inl hbefore.symm
        | some e =>
            rcases hgrown.new k e hlookup' with hthere | ⟨rfl, -⟩
            · rw [hlookup] at hthere
              cases hthere
            · exact .inr ⟨hbefore, rfl⟩

theorem change (hmem : file ∈ files) (hnamed : file.Named) (hchange : Change (top ++ file.place) disk disk')
    (hstep : disk'.lookup (top ++ file.place) ≠ none → IsStep file.name) :
    Within project top files before disk' where
  tree := by
    refine h.tree.change hchange fun k name e hlookup heq => ?_
    obtain ⟨-, hname⟩ := List.append_inj' (List.append_cancel_left heq) rfl
    obtain rfl : file.name = name := List.singleton_inj.1 hname
    rw [← heq] at hlookup
    exact ⟨hstep (by rw [hlookup]; simp), (File.isPlain_name hnamed).slash⟩
  same := by
    intro k hk
    rw [hchange.same k (hk file hmem)]
    exact h.same k hk

/-- A file is patched at its place. -/
theorem refill (hmem : file ∈ files) (hnamed : file.Named) (hholds : disk.HoldsText (file.path project) k t)
    (hrefilled : Refilled k disk disk') : Within project top files before disk' := by
  have hchange := hholds.change_of_refilled h.tree.closed hrefilled
  obtain ⟨x, hlookup⟩ := hholds.lookup
  obtain ⟨x, hlocate⟩ := hholds
  obtain rfl := File.eq_place hnamed h.tree hlocate
  refine h.change hmem hnamed hchange fun _ => ?_
  obtain ⟨hstep, -⟩ := h.tree.plain file.folder file.name _ hlookup
  exact hstep

theorem placeNew {answer : Except Failure Unit} (hmem : file ∈ files) (hnamed : file.Named)
    (hplace : (Blueprint.placeNew (file.path project) what content).on disk = (answer, disk')) :
    Within project top files before disk' := by
  rw [File.path_eq hnamed] at hplace
  rcases Blueprint.placeNew_cases h.tree file.folder_ne_nil (File.isPlain hnamed)
    (File.grown_makeFolders h.tree file) File.isStep_folderNames hplace with
    ⟨-, hgrown⟩ | ⟨-, -, hstep, grown, hgrown, hchange, -⟩
  · exact h.grown hgrown
  · exact (h.grown hgrown).change hmem hnamed hchange fun _ => hstep

theorem discard {answer : Except Failure Bool} (hmem : file ∈ files) (hnamed : file.Named)
    (hdiscard : (Blueprint.discard (file.path project)).on disk = (answer, disk')) :
    Within project top files before disk' := by
  rw [File.path_eq hnamed] at hdiscard
  rcases Blueprint.discard_cases h.tree (File.isPlain hnamed) hdiscard with rfl | ⟨hchange, hgone⟩
  · exact h
  · exact h.change hmem hnamed hchange fun hthere => absurd hgone hthere

theorem insert {fragment : Fragment} {answer : Except Failure Patch.Outcome} (hmem : file ∈ files)
    (hnamed : file.Named) (hinsert : (HostFile.insert (file.path project) fragment).on disk = (answer, disk')) :
    Within project top files before disk' := by
  rcases HostFile.insert_cases hinsert with ⟨-, rfl⟩ | ⟨k, t, patched, hholds, -, -, -, hrefilled⟩
  · exact h
  · exact h.refill hmem hnamed hholds hrefilled

theorem remove {fragment : Fragment} {answer : Except Failure Patch.Outcome} (hmem : file ∈ files)
    (hnamed : file.Named) (hremove : (HostFile.remove (file.path project) fragment).on disk = (answer, disk')) :
    Within project top files before disk' := by
  rcases HostFile.remove_cases hremove with ⟨-, rfl⟩ | ⟨k, t, hholds, -, -, hrefilled⟩
  · exact h
  · exact h.refill hmem hnamed hholds hrefilled

end Within

-- ============================================================================ steps

/-- Whether a part of a session touches these files of a project alone. -/
def Stays (setting : Setting) (project : Project) (top : Key) (files : List File) (work : Work α) : Prop :=
  ∀ before, work.Carries setting (Within project top files before) (Within project top files before)
    fun _ => Within project top files before

section Steps

variable {fragment : Fragment} (hmem : file ∈ files) (hnamed : file.Named)

include hmem hnamed

theorem stays_placeNew :
    Stays setting project top files (Work.edit (Blueprint.placeNew (file.path project) what content)) :=
  fun _ => .edit_keeps fun _ h => h.placeNew hmem hnamed rfl

theorem stays_discard : Stays setting project top files (Work.edit (Blueprint.discard (file.path project))) :=
  fun _ => .edit_keeps fun _ h => h.discard hmem hnamed rfl

theorem stays_insert :
    Stays setting project top files (Work.edit (HostFile.insert (file.path project) fragment)) :=
  fun _ => .edit_keeps fun _ h => h.insert hmem hnamed rfl

theorem stays_remove :
    Stays setting project top files (Work.edit (HostFile.remove (file.path project) fragment)) :=
  fun _ => .edit_keeps fun _ h => h.remove hmem hnamed rfl

end Steps

-- ========================================================================= commands

variable {raw name : Text} {asked : Option Text} {assumeYes : Bool}

theorem Page.stays_add (hfiles : (Command.addPage raw).files? = some files) :
    Stays setting project top files (Page.add project.root raw) := by
  have hnamed := named_of_files? hfiles
  obtain rfl := Option.some.inj hfiles
  simp only [List.forall_mem_cons] at hnamed
  obtain ⟨hview, hsheet, hcontroller, hroutes, -⟩ := hnamed
  intro before
  apply carries_opened
  apply Carries.bind (stays_placeNew (by simp) hview before)
  intro _
  apply Carries.bind .report
  intro _
  apply Page.carries_stylesheet (stays_placeNew (by simp) hsheet before)
  apply carries_patch (stays_insert (by simp) hcontroller before)
  apply carries_patch (stays_insert (by simp) hroutes before)
  exact .bind .report fun _ => .pure fun _ => id

theorem Page.stays_remove (hfiles : (Command.removePage raw).files? = some files) :
    Stays setting project top files (Page.remove project.root raw assumeYes) := by
  have hnamed := named_of_files? hfiles
  obtain rfl := Option.some.inj hfiles
  simp only [List.forall_mem_cons] at hnamed
  obtain ⟨hview, hsheet, hcontroller, hroutes, -⟩ := hnamed
  intro before
  apply carries_opened
  apply Carries.ite fun _ => .fail_bind fun _ => id
  intro _
  apply carries_checked
  apply carries_agreed
  apply Carries.bind (stays_discard (by simp) hview before)
  intro _
  apply Carries.bind .report
  intro _
  apply Carries.bind (stays_discard (by simp) hsheet before)
  intro discarded
  refine .optional .report ?_
  apply carries_patch (stays_remove (by simp) hcontroller before)
  apply carries_patch (stays_remove (by simp) hroutes before)
  exact .bind .report fun _ => .pure fun _ => id

theorem Stimulus.stays_add (hfiles : (Command.addStimulus raw).files? = some files) :
    Stays setting project top files (Stimulus.add project.root raw) := by
  have hnamed := named_of_files? hfiles
  obtain rfl := Option.some.inj hfiles
  have hstimulus : (File.stimulus (Name.normalize raw)).Named := hnamed _ (by simp)
  intro before
  apply carries_opened
  apply Carries.bind (stays_placeNew (by simp) hstimulus before)
  intro _
  exact .bind .report fun _ => .bind .report fun _ => .pure fun _ => id

theorem Stimulus.stays_remove (hfiles : (Command.removeStimulus raw).files? = some files) :
    Stays setting project top files (Stimulus.remove project.root raw assumeYes) := by
  have hnamed := named_of_files? hfiles
  obtain rfl := Option.some.inj hfiles
  have hstimulus : (File.stimulus (Name.normalize raw)).Named := hnamed _ (by simp)
  intro before
  apply carries_opened
  apply carries_checked
  apply Carries.bind_still (.edit (Usage.still_find _ _)) fun _ => id
  intro usages
  apply Carries.bind_still (still_reportUsages _ _ _) fun _ => id
  intro _
  apply carries_agreed
  apply Carries.bind (stays_discard (by simp) hstimulus before)
  intro _
  exact .bind .report fun _ => .bind .report fun _ => .pure fun _ => id

theorem Layout.stays_add (hfiles : (Command.addLayout raw asked).files? = some files) :
    Stays setting project top files (Layout.add project.root raw asked assumeYes) := by
  have hnamed := named_of_files? hfiles
  obtain rfl := Option.some.inj hfiles
  simp only [List.forall_mem_cons] at hnamed
  obtain ⟨hlayout, hcontroller, -⟩ := hnamed
  intro before
  apply carries_opened
  apply carries_checked
  apply Carries.bind_still (.edit project.still_homeViews) fun _ => id
  intro views
  apply Carries.bind_still (Layout.still_viewFor _ _ _ _) fun _ => id
  intro view
  apply Carries.bind_still (.edit (Patch.still_layoutFor? _ _)) fun _ => id
  intro found
  cases found with
  | some present => exact .fail_bind fun _ => id
  | none =>
      apply Carries.bind_still (.edit (Edit.still_ask _)) fun _ => id
      intro title
      apply Carries.bind (stays_placeNew (by simp) hlayout before)
      intro _
      apply Carries.bind .report
      intro _
      apply Carries.bind (Layout.carries_declareLayout (stays_insert (by simp) hcontroller before))
      intro _
      exact .bind .report fun _ => .pure fun _ => id

theorem Layout.stays_remove (hfiles : (Command.removeLayout raw).files? = some files) :
    Stays setting project top files (Layout.remove project.root raw assumeYes) := by
  have hnamed := named_of_files? hfiles
  obtain rfl := Option.some.inj hfiles
  simp only [List.forall_mem_cons] at hnamed
  obtain ⟨hlayout, hcontroller, -⟩ := hnamed
  intro before
  apply carries_opened
  apply carries_checked
  apply carries_agreed
  apply carries_patch (stays_remove (by simp) hcontroller before)
  apply Carries.bind (stays_discard (by simp) hlayout before)
  intro _
  exact .bind .report fun _ => .bind .report fun _ => .pure fun _ => id

theorem stays_perform {request : Request} (hfiles : request.command.files? = some files) :
    Stays setting ⟨request.folder⟩ top files (perform request) := by
  obtain ⟨command, folder, assumeYes⟩ := request
  cases command with
  | addPage raw => exact Page.stays_add hfiles
  | removePage raw => exact Page.stays_remove hfiles
  | addStimulus raw => exact Stimulus.stays_add hfiles
  | removeStimulus raw => exact Stimulus.stays_remove hfiles
  | addLayout raw view => exact Layout.stays_add hfiles
  | removeLayout raw => exact Layout.stays_remove hfiles
  | new name bare | addPin package | removePin package | run | build zip | version => cases hfiles

-- ======================================================================== confinement

/-- Names do not reach outside their place. Whatever the operator wrote for the name, and
however the command ends, every entry of the disk stays as it was but for the files of that
name, folders that are made apart. Each of these files is right in the folder of its kind,
where its path leads if it leads anywhere, and the name is searched for literally. -/
theorem perform_confined {request : Request} {session : Session} (hfiles : request.command.files? = some files)
    (tree : Tree request.folder top session.disk) :
    (∀ k, (∀ file ∈ files, k ≠ top ++ file.place) →
        ((perform request).on setting session).2.disk.lookup k = session.disk.lookup k
          ∨ session.disk.lookup k = none
            ∧ ((perform request).on setting session).2.disk.lookup k = some .folder)
      ∧ (∀ file ∈ files,
        Path.parent? (file.path ⟨request.folder⟩) = some (Path.under request.folder file.folder)
          ∧ Path.fileName? (file.path ⟨request.folder⟩) = some file.name ∧ '/' ∉ file.name
          ∧ ∀ follow k e, session.disk.locate follow (file.path ⟨request.folder⟩) = .ok (.entry k e) →
            k = top ++ file.place)
      ∧ ∀ search ∈ nameSearches, TakesLiterally search.2 search.1 := by
  refine ⟨?_, fun file hfile => ?_, fun search => takesLiterally_of_mem⟩
  · have hstays : Stays setting ⟨request.folder⟩ top files (perform request) := stays_perform hfiles
    exact ((hstays session.disk).keeps session (.refl tree)).same
  · have hnamed := named_of_files? hfiles file hfile
    refine ⟨File.parent?_path hnamed _, File.fileName?_path hnamed _, (File.isPlain_name hnamed).slash, ?_⟩
    exact fun follow k e => File.eq_place hnamed tree

/-- A page by a name that looks like the path of another file. -/
theorem perform_confined_upwards :
    (∀ k, (∀ file ∈ [File.app (.view "______gemfile"), .app (.stylesheet "______gemfile"), .app .controller, .routes],
        k ≠ [] ++ file.place) →
        ((perform ⟨.addPage "../../Gemfile", "/", true⟩).on Page.idleSetting
            (Session.start Page.smallDisk none)).2.disk.lookup k = Page.smallDisk.lookup k
          ∨ Page.smallDisk.lookup k = none
            ∧ ((perform ⟨.addPage "../../Gemfile", "/", true⟩).on Page.idleSetting
              (Session.start Page.smallDisk none)).2.disk.lookup k = some .folder)
      ∧ (∀ file ∈ [File.app (.view "______gemfile"), .app (.stylesheet "______gemfile"), .app .controller, .routes],
        Path.parent? (file.path ⟨"/"⟩) = some (Path.under "/" file.folder)
          ∧ Path.fileName? (file.path ⟨"/"⟩) = some file.name ∧ '/' ∉ file.name
          ∧ ∀ follow k e, Page.smallDisk.locate follow (file.path ⟨"/"⟩) = .ok (.entry k e) →
            k = [] ++ file.place)
      ∧ ∀ search ∈ nameSearches, TakesLiterally search.2 search.1 := by
  have hfiles : (Command.addPage "../../Gemfile").files?
      = some [.app (.view "______gemfile"), .app (.stylesheet "______gemfile"), .app .controller, .routes] := by
    decide +kernel
  have hclosed : Page.smallDisk.Closed := Disk.closed_of_forall_mem (by decide +kernel)
  have hplain : Disk.Plain Page.smallDisk [] := Disk.plain_of_forall_mem (by decide +kernel) []
  have htree : Tree "/".toList [] Page.smallDisk := Disk.tree_of_plain_root hclosed hplain
  exact @perform_confined [] _ Page.idleSetting ⟨.addPage "../../Gemfile", "/", true⟩
    (Session.start Page.smallDisk none) hfiles htree

end SiteScaffold.Command

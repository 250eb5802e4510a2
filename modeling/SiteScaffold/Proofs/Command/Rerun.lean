/-
Commands that stopped midway, run again. Each of them looks first at a file that its first run
has made or removed (`Staged.guard`), so whatever is restored in the meantime, the second run
is refused there and changes nothing. Only when that file is put back as well, the command
goes on: it makes or removes what is left, and then all that belongs to the page or layout is
there or gone (`Staged.Done`), unless the system reports a fault.

What a later step does keeps what an earlier one did. Steps that add something cover the disk
(`Covers`), steps that remove something are covered by it, and host files are patched one
after the other, maybe at the same place (`HoldsText.refilled`).
-/
import SiteScaffold.Proofs.Command.PageRun
import SiteScaffold.Proofs.Command.Stopped
import SiteScaffold.Proofs.Patch.Presence

namespace SiteScaffold.Command

open Disk (Covers HoldsText)
open Patch
open Project (File)
open Work (EndsWith)

variable {project : Project} {file : File} {disk disk' : Disk} {k j : Key} {setting setting' : Setting}
  {session later : Session} {failure : Failure} {assumeYes : Bool} {asked : Option Text}
  {raw page layout view what content t s : Text}

-- ============================================================================ files

/-- A file of a project that is not there is placed and leaves all that was there as it was,
unless the system reports a fault. On a free path it does not. -/
theorem placeNew_file (hnamed : file.Named) (hroutes : disk.isFile project.routes = true) (hclosed : disk.Closed)
    (hholds : disk.holds (file.path project) = false) (what content : Text) :
    (∃ failure disk', (Blueprint.placeNew (file.path project) what content).on disk = (.error failure, disk')
        ∧ failure.OfSystem ∧ ¬ disk.Free (file.path project))
      ∨ ∃ disk', (Blueprint.placeNew (file.path project) what content).on disk = (.ok (), disk')
        ∧ (∀ j e, disk.lookup j = some e → disk'.lookup j = some e) ∧ disk'.Closed
        ∧ disk'.isFile (file.path project) = true := by
  obtain ⟨k, x, c, hlocate⟩ := Disk.isFile_iff.1 hroutes
  have hroutesNamed : File.routes.Named := trivial
  obtain ⟨left, top, hreaches⟩ := File.exists_reaches hroutesNamed hlocate
  rw [File.path_eq hnamed] at hholds ⊢
  exact Blueprint.placeNew_fresh hclosed hreaches
    (fun n hn => File.isStep_folderNames n (file.mem_folderNames n hn)) file.folder_ne_nil
    (File.isPlain_name hnamed) hholds what content

-- ========================================================================= the parts

/-- Whether the controller has the action of a page, and the file of routes its route. -/
structure Page.Hosted (project : Project) (page : Text) (disk : Disk) : Prop where
  action : ∃ k t, disk.HoldsText project.homeController k t ∧ (ControllerAction.definition page).occursIn t = true
  route : ∃ k t, disk.HoldsText project.routes k t ∧ Route.Declared page page t

/-- Whether the controller has no action of a page, and the file of routes no line for it. -/
structure Page.Unhosted (project : Project) (page : Text) (disk : Disk) : Prop where
  action : ∃ k t, disk.HoldsText project.homeController k t ∧ (ControllerAction.block page).occursIn t = false
  route : ∃ k t, disk.HoldsText project.routes k t
    ∧ ∀ l ∈ Text.wholeLines t, (Route.pageLine page).occursIn l = false

/-- The action and the route of a page are put into the host files, also if these are one. -/
theorem Page.insert_hosted (hpage : Name.IsNormal page) (hcontroller : disk.HoldsText project.homeController k t)
    (haction : (Fragment.action page).Anchored t) (hroutes : disk.HoldsText project.routes j s)
    (hroute : (Fragment.route page page).Anchored s) :
    ∃ disk₁ disk₂ outcome outcome',
      (HostFile.insert project.homeController (.action page)).on disk = (.ok outcome, disk₁)
        ∧ (HostFile.insert project.routes (.route page page)).on disk₁ = (.ok outcome', disk₂)
        ∧ Covers disk disk₂ ∧ Page.Hosted project page disk₂ := by
  obtain ⟨patched, hinsert⟩ := ControllerAction.exists_insert haction
  obtain ⟨disk₁, hedit, hholds, hrefilled⟩ := HostFile.insert_on (.action page) hcontroller hinsert
  have hdefined := ControllerAction.occursIn_insert hpage hinsert
  have hnext : ∃ i u, disk₁.HoldsText project.routes i u ∧ ∃ patched', Route.insertPage page page u = .ok patched' := by
    rcases hcontroller.refilled hholds hrefilled hroutes with ⟨rfl, rfl, hthere⟩ | ⟨-, hthere⟩
    · exact ⟨_, _, hthere, Route.insertPage_of_insertAction hinsert (Route.exists_insertPage hroute)⟩
    · exact ⟨_, _, hthere, Route.exists_insertPage hroute⟩
  obtain ⟨i, u, hholds', patched', hinsert'⟩ := hnext
  obtain ⟨disk₂, hedit', hholds₂, hrefilled'⟩ := HostFile.insert_on (.route page page) hholds' hinsert'
  refine ⟨disk₁, disk₂, _, _, hedit, hedit', ?_, ?_, _, _, hholds₂, Route.declared_insertPage hpage hpage hinsert'⟩
  · exact (Covers.of_refilled hcontroller hrefilled).1.trans (Covers.of_refilled hholds' hrefilled').1
  · rcases hholds'.refilled hholds₂ hrefilled' hholds with ⟨rfl, rfl, hthere⟩ | ⟨-, hthere⟩
    · exact ⟨_, _, hthere, ControllerAction.occursIn_insertPage (hpage.notMem (by decide)) hinsert' hdefined⟩
    · exact ⟨_, _, hthere, hdefined⟩

/-- The action and the route of a page are taken out of the host files, also if these are one,
unless one of them cannot be read. -/
theorem Page.remove_hosted (hpage : Name.IsNormal page) (disk : Disk) :
    (∃ failure, (HostFile.remove project.homeController (.action page)).on disk = (.error failure, disk)
        ∧ failure.OfSystem ∧ ¬ ∃ k t, disk.HoldsText project.homeController k t)
      ∨ ∃ disk₁ outcome, (HostFile.remove project.homeController (.action page)).on disk = (.ok outcome, disk₁)
        ∧ ((∃ failure, (HostFile.remove project.routes (.route page page)).on disk₁ = (.error failure, disk₁)
            ∧ failure.OfSystem ∧ ¬ ∃ k t, disk.HoldsText project.routes k t)
          ∨ ∃ disk₂ outcome', (HostFile.remove project.routes (.route page page)).on disk₁ = (.ok outcome', disk₂)
            ∧ Covers disk₂ disk ∧ Page.Unhosted project page disk₂) := by
  rcases HostFile.remove_total disk project.homeController (.action page) with
    hfails | ⟨k, t, disk₁, hcontroller, hedit, hholds, hrefilled⟩
  · exact .inl hfails
  refine .inr ⟨disk₁, _, hedit, ?_⟩
  have hgone : (ControllerAction.block page).occursIn ((ControllerAction.remove page t).getD t) = false :=
    ControllerAction.occursIn_block_remove (hpage.notMem (by decide)) t
  rcases HostFile.remove_total disk₁ project.routes (.route page page) with
    ⟨failure, hedit', hsystem, hnone⟩ | ⟨i, u, disk₂, hroutes, hedit', hholds', hrefilled'⟩
  · refine .inl ⟨failure, hedit', hsystem, ?_⟩
    rintro ⟨j, s, hroutes⟩
    rcases hcontroller.refilled hholds hrefilled hroutes with ⟨-, -, hthere⟩ | ⟨-, hthere⟩
    · exact hnone ⟨_, _, hthere⟩
    · exact hnone ⟨_, _, hthere⟩
  · refine .inr ⟨disk₂, _, hedit', ?_, ?_, _, _, hholds', Route.notMem_removePage u⟩
    · exact (Covers.of_refilled hroutes hrefilled').2.trans (Covers.of_refilled hcontroller hrefilled).2
    · rcases hroutes.refilled hholds' hrefilled' hholds with ⟨rfl, rfl, hthere⟩ | ⟨-, hthere⟩
      · exact ⟨_, _, hthere, ControllerAction.occursIn_block_removePage (hpage.notMem (by decide)) hgone⟩
      · exact ⟨_, _, hthere, hgone⟩

-- ========================================================================== commands

/-- The commands that can stop midway. -/
inductive Staged where
  | addPage (raw : Text)
  | addLayout (raw : Text) (asked : Option Text)
  | removePage (raw : Text)

namespace Staged

def command : Staged → Command
  | addPage raw => .addPage raw
  | addLayout raw asked => .addLayout raw asked
  | removePage raw => .removePage raw

/-- The command in the folder of a project. -/
def request (staged : Staged) (project : Project) (assumeYes : Bool) : Request :=
  ⟨staged.command, project.root, assumeYes⟩

/-- The file that a command looks at first. -/
def guard (project : Project) : Staged → Text
  | addPage raw | removePage raw => project.view (Name.normalize raw)
  | addLayout raw _ => project.layout (Name.normalize raw)

/-- How a command is refused for that file. -/
def refusal (project : Project) : Staged → Failure
  | addPage raw => ⟨[], .alreadyExists "View" (project.view (Name.normalize raw))⟩
  | addLayout raw _ => ⟨[], .alreadyExists "Layout" (project.layout (Name.normalize raw))⟩
  | removePage raw => ⟨[], .notFound "Page" (Name.normalize raw)⟩

/-- Whether a failure is the one that a command stops midway with. -/
def StopsMidway (project : Project) (failure : Failure) : Staged → Prop
  | addPage _ | addLayout _ _ => NoAnchor failure
  | removePage _ => Unread project.homeController failure

/-- Whether the host files can be read and have the text that parts are placed by, and the
operator tells what a command needs to know. -/
def Ready (project : Project) (setting : Setting) (session : Session) (assumeYes : Bool) : Staged → Prop
  | addPage raw =>
    let page := Name.normalize raw
    (∃ t, session.disk.readText project.homeController = .ok t ∧ (Fragment.action page).Anchored t)
      ∧ ∃ t, session.disk.readText project.routes = .ok t ∧ (Fragment.route page page).Anchored t
  | addLayout raw asked =>
    let layout := Name.normalize raw
    ∃ views view, project.homeViews.on session.disk = (.ok views, session.disk)
      ∧ ((Layout.viewFor layout views asked assumeYes).EndsWith setting session.disk session.answers
          fun outcome _ => outcome = .ok view)
      ∧ (layoutFor? project.homeController view).on session.disk = (.ok none, session.disk)
      ∧ ∃ t, session.disk.readText project.homeController = .ok t ∧ (Fragment.layout layout view homeClass).Anchored t
  | removePage raw =>
    (confirmed assumeYes ("Delete the '" ++ Name.normalize raw ++ "' page?")).EndsWith setting session.disk
      session.answers fun outcome _ => outcome = .ok true

/-- Whether no step of a command can meet a fault of the system: what is to be placed is so on a
free path, and what is to be removed is a file of its own. -/
def Clear (project : Project) (disk : Disk) : Staged → Prop
  | addPage raw =>
    disk.Free (project.view (Name.normalize raw)) ∧ disk.holds (project.stylesheet (Name.normalize raw)) = true
  | addLayout raw _ => disk.Free (project.layout (Name.normalize raw))
  | removePage raw =>
    ∃ k, disk.Stands (project.view (Name.normalize raw)) k ∧ disk.Free (project.stylesheet (Name.normalize raw))
      ∧ (∃ j t, j ≠ k ∧ disk.HoldsText project.homeController j t)
      ∧ ∃ j t, j ≠ k ∧ disk.HoldsText project.routes j t

/-- Whether all that belongs to the page or layout is there, or all is gone. -/
def Done (project : Project) (disk : Disk) : Staged → Prop
  | addPage raw =>
    let page := Name.normalize raw
    disk.isFile (project.view page) = true ∧ disk.holds (project.stylesheet page) = true
      ∧ Page.Hosted project page disk
  | addLayout raw _ =>
    let layout := Name.normalize raw
    disk.isFile (project.layout layout) = true
      ∧ ∃ k t, disk.HoldsText project.homeController k t ∧ (LayoutDirective.declaration layout).occursIn t = true
  | removePage raw =>
    let page := Name.normalize raw
    disk.holds (project.view page) = false ∧ disk.holds (project.stylesheet page) = false
      ∧ Page.Unhosted project page disk

/-- What a command comes to that starts on a disk: it completes, and everything is done, or the
system reports a fault, which needs a disk where that can happen. -/
def Completes (staged : Staged) (project : Project) (before : Disk) (answer : Except Failure Outcome) (disk : Disk) :
    Prop :=
  answer = .ok .completed ∧ staged.Done project disk
    ∨ Page.FailsOfSystem answer ∧ ¬ staged.Clear project before

/-- Where no fault can be met the command completes. -/
theorem Completes.of_clear {staged : Staged} {answer : Except Failure Outcome}
    (h : staged.Completes project disk answer disk') (hclear : staged.Clear project disk) :
    answer = .ok .completed ∧ staged.Done project disk' := by
  rcases h with hdone | ⟨-, hnot⟩
  · exact hdone
  · exact absurd hclear hnot

end Staged

-- ========================================================================= refused

/-- A page whose view is there is not added. -/
theorem Page.add_refused (hopen : (Project.open project.root).on disk = (.ok project, disk))
    (hholds : disk.holds (project.view (Name.normalize raw)) = true) :
    (Page.add project.root raw).Ends setting disk fun answer disk' =>
      answer = .error ((Staged.addPage raw).refusal project) ∧ disk' = disk := by
  refine .bind_edit hopen (.bind_report ?_)
  exact .bind_edit_error (Blueprint.placeNew_on_holds hholds) ⟨rfl, rfl⟩

/-- A layout whose file is there is not added. -/
theorem Layout.add_refused (hopen : (Project.open project.root).on disk = (.ok project, disk))
    (hholds : disk.holds (project.layout (Name.normalize raw)) = true) :
    (Layout.add project.root raw asked assumeYes).Ends setting disk fun answer disk' =>
      answer = .error ((Staged.addLayout raw asked).refusal project) ∧ disk' = disk := by
  refine .bind_edit hopen (.bind_report (.bind_edit (Edit.on_ask _) ?_))
  rw [if_pos hholds]
  exact .bind (.fail ⟨rfl, rfl⟩)

/-- A page whose view is not there is not removed. -/
theorem Page.remove_refused (hopen : (Project.open project.root).on disk = (.ok project, disk))
    (hpermanent : Name.normalize raw ∉ Page.permanentPages)
    (hholds : disk.holds (project.view (Name.normalize raw)) = false) :
    (Page.remove project.root raw assumeYes).Ends setting disk fun answer disk' =>
      answer = .error ((Staged.removePage raw).refusal project) ∧ disk' = disk := by
  refine .bind_edit hopen (.bind_report ?_)
  rw [if_neg hpermanent]
  refine .bind_edit (Edit.on_ask _) ?_
  rw [hholds]
  exact .bind (.fail ⟨rfl, rfl⟩)

-- ======================================================================== completed

/-- Once the view and the stylesheet of a page are placed, all that belongs to the page is put
in. -/
theorem Page.add_placed {placed : Disk} (hopen : (Project.open project.root).on disk = (.ok project, disk))
    (hcontroller : disk.HoldsText project.homeController k t) (haction : (Fragment.action (Name.normalize raw)).Anchored t)
    (hroutes : disk.HoldsText project.routes j s)
    (hroute : (Fragment.route (Name.normalize raw) (Name.normalize raw)).Anchored s)
    (hview : (Blueprint.placeNew (project.view (Name.normalize raw)) "View" (Template.pageView (Name.normalize raw))).on disk
      = (.ok (), disk'))
    (hsheet : disk'.holds (project.stylesheet (Name.normalize raw)) = true ∧ placed = disk'
      ∨ disk'.holds (project.stylesheet (Name.normalize raw)) = false
        ∧ (Blueprint.placeNew (project.stylesheet (Name.normalize raw)) "Stylesheet"
          (Template.pageStylesheet (Name.normalize raw))).on disk' = (.ok (), placed))
    (hkept : ∀ i e, disk.lookup i = some e → placed.lookup i = some e)
    (hthere : placed.isFile (project.view (Name.normalize raw)) = true)
    (hstyled : placed.holds (project.stylesheet (Name.normalize raw)) = true) :
    (Page.add project.root raw).Ends setting disk fun answer after =>
      answer = .ok .completed ∧ (Staged.addPage raw).Done project after := by
  obtain ⟨disk₁, disk₂, outcome, outcome', hedit, hedit', hcovers, hhosted⟩ :=
    Page.insert_hosted ⟨raw, rfl⟩ (hcontroller.mono hkept) haction (hroutes.mono hkept) hroute
  have hdone : (Staged.addPage raw).Done project disk₂ := ⟨hcovers.isFile hthere, hcovers.holds hstyled, hhosted⟩
  refine .bind_edit hopen (.bind_report ?_)
  refine .bind_edit hview (.bind_report (.bind_edit (Edit.on_ask _) ?_))
  rcases hsheet with ⟨hholds, rfl⟩ | ⟨hholds, hplace⟩
  · rw [hholds, if_pos rfl]
    refine .bind_report (.bind_edit hedit (.bind_reportPatch ?_))
    exact .bind_edit hedit' (.bind_reportPatch (.bind_report (.pure ⟨rfl, hdone⟩)))
  · rw [hholds, if_neg Bool.false_ne_true]
    refine .bind_edit hplace (.bind_report (.bind_edit hedit (.bind_reportPatch ?_)))
    exact .bind_edit hedit' (.bind_reportPatch (.bind_report (.pure ⟨rfl, hdone⟩)))

/-- A page whose view is not there is added. -/
theorem Page.add_completes (hopen : (Project.open project.root).on disk = (.ok project, disk)) (hclosed : disk.Closed)
    (hholds : disk.holds (project.view (Name.normalize raw)) = false)
    (hcontroller : disk.HoldsText project.homeController k t) (haction : (Fragment.action (Name.normalize raw)).Anchored t)
    (hroutes : disk.HoldsText project.routes j s)
    (hroute : (Fragment.route (Name.normalize raw) (Name.normalize raw)).Anchored s) :
    (Page.add project.root raw).Ends setting disk ((Staged.addPage raw).Completes project disk) := by
  have hview : (File.app (.view (Name.normalize raw))).Named := ⟨raw, rfl⟩
  have hsheet : (File.app (.stylesheet (Name.normalize raw))).Named := ⟨raw, rfl⟩
  obtain ⟨-, -, hfiles⟩ := Project.on_open_eq_ok.1 hopen
  have hfile : disk.isFile project.routes = true := (Bool.and_eq_true_iff.1 hfiles).1
  rcases placeNew_file hview hfile hclosed hholds "View" (Template.pageView (Name.normalize raw)) with
    ⟨failure, disk', hedit, hsystem, hfree⟩ | ⟨disk₁, hedit, hkept, hclosed₁, hthere⟩
  · refine .bind_edit hopen (.bind_report ?_)
    exact .bind_edit_error hedit (.inr ⟨hsystem, fun hclear => hfree hclear.1⟩)
  cases hstyled : disk₁.holds (project.stylesheet (Name.normalize raw)) with
  | true =>
      exact fun session hdisk => .inl (Page.add_placed hopen hcontroller haction hroutes hroute hedit
        (.inl ⟨hstyled, rfl⟩) hkept hthere hstyled session hdisk)
  | false =>
      rcases placeNew_file hsheet ((Covers.of_kept hkept).isFile hfile) hclosed₁ hstyled "Stylesheet"
          (Template.pageStylesheet (Name.normalize raw)) with
        ⟨failure, disk', hedit', hsystem, -⟩ | ⟨disk₂, hedit', hkept', -, hthere'⟩
      · refine .bind_edit hopen (.bind_report (.bind_edit hedit (.bind_report (.bind_edit (Edit.on_ask _) ?_))))
        rw [hstyled, if_neg Bool.false_ne_true]
        refine .bind_edit_error hedit' (.inr ⟨hsystem, fun hclear => ?_⟩)
        rw [(Covers.of_kept hkept).holds hclear.2] at hstyled
        cases hstyled
      · exact fun session hdisk => .inl (Page.add_placed hopen hcontroller haction hroutes hroute hedit
          (.inr ⟨hstyled, hedit'⟩) (fun i e hi => hkept' i e (hkept i e hi)) ((Covers.of_kept hkept').isFile hthere)
          (Disk.holds_of_isFile hthere') session hdisk)

/-- The directive of a layout is put in, or another one declares the layout already. -/
theorem Layout.declareLayout_ends {controller : Text} {Expected : Except Failure Unit → Disk → Prop}
    (hcontroller : disk.HoldsText controller k t) (h : (Fragment.layout layout view homeClass).Anchored t)
    (hend : ∀ disk' t', Covers disk disk' → disk'.HoldsText controller k t' →
      (LayoutDirective.declaration layout).occursIn t' = true → Expected (.ok ()) disk') :
    (Layout.declareLayout controller layout view).Ends setting disk Expected := by
  refine .bind (.tryCatch ?_)
  rcases h.cases with ⟨patched, hinsert⟩ | ⟨other, hinsert⟩
  · obtain ⟨disk', hedit, hholds, hrefilled⟩ := HostFile.insert_on _ hcontroller hinsert
    have hexpected : Expected (.ok ()) disk' :=
      hend disk' _ (Covers.of_refilled hcontroller hrefilled).1 hholds (LayoutDirective.occursIn_insert hinsert)
    refine .bind_edit hedit (.pure ?_)
    cases hpatched : HostFile.outcome patched with
    | applied | unchanged => exact .report hexpected
  · refine .bind_edit_error (HostFile.insert_on_error _ hcontroller hinsert) ?_
    refine .bind_report (.pure (.pure ?_))
    exact hend disk t (.refl disk) hcontroller (LayoutDirective.insert_eq_declared hinsert)

/-- A layout whose file is not there is added for a view that has none. -/
theorem Layout.add_completes {views : List Text} {answers : Option (List Answer)}
    (hopen : (Project.open project.root).on disk = (.ok project, disk)) (hclosed : disk.Closed)
    (hholds : disk.holds (project.layout (Name.normalize raw)) = false)
    (hviews : project.homeViews.on disk = (.ok views, disk))
    (hview : (Layout.viewFor (Name.normalize raw) views asked assumeYes).EndsWith setting disk answers
      fun outcome _ => outcome = .ok view)
    (hfree : (layoutFor? project.homeController view).on disk = (.ok none, disk))
    (hcontroller : disk.HoldsText project.homeController k t)
    (hanchored : (Fragment.layout (Name.normalize raw) view homeClass).Anchored t) :
    (Layout.add project.root raw asked assumeYes).EndsWith setting disk answers
      ((Staged.addLayout raw asked).Completes project disk) := by
  have hnamed : (File.app (.layout (Name.normalize raw))).Named := ⟨raw, rfl⟩
  obtain ⟨-, -, hfiles⟩ := Project.on_open_eq_ok.1 hopen
  have hfile : disk.isFile project.routes = true := (Bool.and_eq_true_iff.1 hfiles).1
  refine .bind_edit hopen (.bind_report (.bind_edit (Edit.on_ask _) ?_))
  rw [hholds, if_neg Bool.false_ne_true]
  refine .bind_edit hviews (.bind (.of_still (Layout.still_viewFor _ _ _ _) hview ?_))
  obtain ⟨title, htitle⟩ : ∃ title, project.applicationTitle.on disk = (.ok title, disk) := ⟨_, Edit.on_ask _⟩
  refine .bind_edit hfree (.bind_edit htitle ?_)
  rcases placeNew_file hnamed hfile hclosed hholds "Layout" (Template.layout (Name.normalize raw) title) with
    ⟨failure, disk', hedit, hsystem, hnot⟩ | ⟨disk₁, hedit, hkept, -, hthere⟩
  · exact .bind_edit_error hedit (.inr ⟨hsystem, hnot⟩)
  refine .bind_edit hedit (.bind_report (.bind (declareLayout_ends (hcontroller.mono hkept) hanchored ?_)))
  intro disk' t' hcovers hcontroller' hdeclared
  exact .bind_report (.pure (.inl ⟨rfl, hcovers.isFile hthere, _, _, hcontroller', hdeclared⟩))

/-- Where no fault can be met the view of a page is discarded, there is no stylesheet, and the
host files can still be read. -/
theorem Page.clear_discarded (hclosed : disk.Closed) (h : (Staged.removePage raw).Clear project disk) :
    ∃ disk', (Blueprint.discard (project.view (Name.normalize raw))).on disk = (.ok true, disk')
      ∧ (Blueprint.discard (project.stylesheet (Name.normalize raw))).on disk' = (.ok false, disk')
      ∧ (∃ k t, disk'.HoldsText project.homeController k t) ∧ ∃ k t, disk'.HoldsText project.routes k t := by
  have hview : (File.app (.view (Name.normalize raw))).Named := ⟨raw, rfl⟩
  have hsheet : (File.app (.stylesheet (Name.normalize raw))).Named := ⟨raw, rfl⟩
  have hviewPath := File.segments_path hview project
  have hviewName := (File.isPlain_name hview).toIsName
  have hsheetPath := File.segments_path hsheet project
  have hsheetName := (File.isPlain_name hsheet).toIsName
  obtain ⟨k, hstands, hfree, ⟨i, t, hi, hcontroller⟩, j, s, hj, hroutes⟩ := h
  obtain ⟨disk', hdiscard, -, hchange, -⟩ :=
    Blueprint.discard_on hclosed hviewPath hviewName (List.not_mem_nil) hstands
  have hother : k.getLast? ≠ some (File.app (.stylesheet (Name.normalize raw))).name := by
    rw [hstands.getLast? hviewPath hviewName]
    intro heq
    exact absurd (List.append_cancel_left (Option.some.inj heq)) (by decide)
  have hfree' := hfree.congr hchange.root hchange.agreeOff hchange.leaf hsheetPath hsheetName hother
  exact ⟨disk', hdiscard, Blueprint.discard_on_free hsheetPath hsheetName hfree',
    ⟨i, t, hcontroller.congr hchange hi⟩, j, s, hroutes.congr hchange hj⟩

/-- A page whose view is there is removed. -/
theorem Page.remove_completes {answers : Option (List Answer)} (hclosed : disk.Closed)
    (hopen : (Project.open project.root).on disk = (.ok project, disk))
    (hpermanent : Name.normalize raw ∉ Page.permanentPages)
    (hholds : disk.holds (project.view (Name.normalize raw)) = true)
    (hagrees : (confirmed assumeYes ("Delete the '" ++ Name.normalize raw ++ "' page?")).EndsWith setting disk answers
      fun outcome _ => outcome = .ok true) :
    (Page.remove project.root raw assumeYes).EndsWith setting disk answers
      ((Staged.removePage raw).Completes project disk) := by
  have hpage : Name.IsNormal (Name.normalize raw) := ⟨raw, rfl⟩
  have hview : (File.app (.view (Name.normalize raw))).Named := hpage
  have hsheet : (File.app (.stylesheet (Name.normalize raw))).Named := hpage
  have hviewPath := File.segments_path hview project
  have hviewName := (File.isPlain_name hview).toIsName
  have hsheetPath := File.segments_path hsheet project
  have hsheetName := (File.isPlain_name hsheet).toIsName
  refine .bind_edit hopen (.bind_report ?_)
  rw [if_neg hpermanent]
  refine .bind_edit (Edit.on_ask _) ?_
  rw [hholds]
  refine .bind (.of_still (still_confirmed _ _) hagrees ?_)
  cases hdiscard : (Blueprint.discard (project.view (Name.normalize raw))).on disk with
  | mk answer disk₁ =>
  obtain ⟨-, ⟨fault, -, -, rfl⟩ | ⟨⟨removed, rfl⟩, hgone⟩⟩ := Blueprint.discard_gone hviewPath hviewName hdiscard
  · refine .bind_edit_error hdiscard (.inr ⟨rfl, fun hclear => ?_⟩)
    obtain ⟨_, hcleared, -⟩ := Page.clear_discarded hclosed hclear
    rw [hdiscard] at hcleared
    cases hcleared
  refine .bind_edit hdiscard (.bind_report ?_)
  cases hdiscard' : (Blueprint.discard (project.stylesheet (Name.normalize raw))).on disk₁ with
  | mk answer disk₂ =>
  obtain ⟨hfewer, ⟨fault, -, -, rfl⟩ | ⟨⟨removed', rfl⟩, hgone'⟩⟩ :=
    Blueprint.discard_gone hsheetPath hsheetName hdiscard'
  · refine .bind_edit_error hdiscard' (.inr ⟨rfl, fun hclear => ?_⟩)
    obtain ⟨_, hcleared, hcleared', -⟩ := Page.clear_discarded hclosed hclear
    rw [hdiscard] at hcleared
    cases hcleared
    rw [hdiscard'] at hcleared'
    cases hcleared'
  refine .bind_edit hdiscard' (.bind_report_if ?_)
  have hreadable : (Staged.removePage raw).Clear project disk →
      (∃ k t, disk₂.HoldsText project.homeController k t) ∧ ∃ k t, disk₂.HoldsText project.routes k t := by
    intro hclear
    obtain ⟨_, hcleared, hcleared', hhosts⟩ := Page.clear_discarded hclosed hclear
    rw [hdiscard] at hcleared
    cases hcleared
    rw [hdiscard'] at hcleared'
    cases hcleared'
    exact hhosts
  rcases Page.remove_hosted hpage disk₂ with ⟨failure, hedit, hsystem, hnone⟩ | ⟨disk₃, outcome, hedit, hrest⟩
  · exact .bind_edit_error hedit (.inr ⟨hsystem, fun hclear => hnone (hreadable hclear).1⟩)
  refine .bind_edit hedit (.bind_reportPatch ?_)
  rcases hrest with ⟨failure, hedit', hsystem, hnone⟩ | ⟨disk₄, outcome', hedit', hcovers, hunhosted⟩
  · exact .bind_edit_error hedit' (.inr ⟨hsystem, fun hclear => hnone (hreadable hclear).2⟩)
  refine .bind_edit hedit' (.bind_reportPatch (.bind_report (.pure (.inl ⟨rfl, ?_, ?_, hunhosted⟩))))
  · exact hcovers.holds_eq_false ((Covers.of_kept hfewer).holds_eq_false hgone)
  · exact hcovers.holds_eq_false hgone'

-- ========================================================================= run again

namespace Staged

variable {staged : Staged}

/-- A command that stops midway has made or removed the file that it looks at first. -/
theorem left_of_stop (hstop : ((perform (staged.request project assumeYes)).on setting session).1 = .error failure)
    (hmidway : staged.StopsMidway project failure) :
    match staged with
    | addPage _ | addLayout _ _ =>
      ((perform (staged.request project assumeYes)).on setting session).2.disk.holds (staged.guard project) = true
    | removePage raw =>
      ((perform (staged.request project assumeYes)).on setting session).2.disk.holds (staged.guard project) = false
        ∧ Name.normalize raw ∉ Page.permanentPages := by
  cases staged with
  | addPage raw => exact Page.stops_add session failure hstop hmidway
  | addLayout raw asked => exact Layout.stops_add session failure hstop hmidway
  | removePage raw => exact Page.stops_remove session failure hstop hmidway

end Staged

/-- A command that stopped midway is refused when it is run again, whatever has been restored in
the meantime, unless the file that it looks at first is put back, too. If it is, and what the
command needs is there, the command completes and all is done that it is to do, unless the
system reports a fault. -/
theorem rerun_after_stop {staged : Staged}
    (hstop : ((perform (staged.request project assumeYes)).on setting session).1 = .error failure)
    (hmidway : staged.StopsMidway project failure)
    (hopen : (Project.open project.root).on later.disk = (.ok project, later.disk)) :
    (later.disk.holds (staged.guard project)
          = ((perform (staged.request project assumeYes)).on setting session).2.disk.holds (staged.guard project) →
        ((perform (staged.request project assumeYes)).on setting' later).1 = .error (staged.refusal project)
          ∧ ((perform (staged.request project assumeYes)).on setting' later).2.disk = later.disk)
      ∧ (later.disk.holds (staged.guard project)
          ≠ ((perform (staged.request project assumeYes)).on setting session).2.disk.holds (staged.guard project) →
        later.disk.Closed → staged.Ready project setting' later assumeYes →
          staged.Completes project later.disk ((perform (staged.request project assumeYes)).on setting' later).1
            ((perform (staged.request project assumeYes)).on setting' later).2.disk) := by
  have hleft := Staged.left_of_stop hstop hmidway
  cases staged with
  | addPage raw =>
      dsimp only at hleft
      rw [hleft, ne_eq, Bool.not_eq_true]
      refine ⟨fun hholds => Page.add_refused hopen hholds later rfl, fun hholds hclosed hready => ?_⟩
      obtain ⟨⟨t, hread, haction⟩, s, hread', hroute⟩ := hready
      obtain ⟨k, hcontroller⟩ := Disk.readText_eq_ok_iff.1 hread
      obtain ⟨j, hroutes⟩ := Disk.readText_eq_ok_iff.1 hread'
      exact Page.add_completes hopen hclosed hholds hcontroller haction hroutes hroute later rfl
  | addLayout raw asked =>
      dsimp only at hleft
      rw [hleft, ne_eq, Bool.not_eq_true]
      refine ⟨fun hholds => Layout.add_refused hopen hholds later rfl, fun hholds hclosed hready => ?_⟩
      obtain ⟨views, view, hviews, hview, hfree, t, hread, hanchored⟩ := hready
      obtain ⟨k, hcontroller⟩ := Disk.readText_eq_ok_iff.1 hread
      exact Layout.add_completes hopen hclosed hholds hviews hview hfree hcontroller hanchored later rfl rfl
  | removePage raw =>
      obtain ⟨hgone, hpermanent⟩ := hleft
      rw [hgone, Bool.ne_false_iff]
      refine ⟨fun hholds => Page.remove_refused hopen hpermanent hholds later rfl, fun hholds hclosed hready => ?_⟩
      exact Page.remove_completes hclosed hopen hpermanent hholds hready later rfl rfl

-- ================================================================== a small project

/-- A session with the small project, in which the file of routes opens no block. -/
def unopened : Session :=
  Session.start (Page.smallDisk.insert ["config".toList, "routes.rb".toList] (.file false (.text "end\n"))) none

/-- A session after the page was added midway and the file of routes was restored. -/
def restored : Session :=
  Session.start (((perform ((Staged.addPage "a").request ⟨"/"⟩ true)).on Page.idleSetting unopened).2.disk.insert
    ["config".toList, "routes.rb".toList] (.file false (.text Page.smallRoutes))) none

/-- A session after the view was taken away as well. -/
def cleared : Session :=
  Session.start (restored.disk.erase ["app".toList, "views".toList, "home".toList, "a.html.erb".toList]) none

/-- The text of the controller when the page was added midway. -/
def halfwayController : Text := "class HomeController\n  def a\n  end\n\nend\n"

theorem ready_small {session : Session}
    (hcontroller : session.disk.readText (Project.homeController ⟨"/"⟩) = .ok halfwayController)
    (hroutes : session.disk.readText (Project.routes ⟨"/"⟩) = .ok Page.smallRoutes) :
    (Staged.addPage "a").Ready ⟨"/"⟩ Page.idleSetting session true := by
  have hname : Name.normalize "a" = "a".toList := by decide +kernel
  refine ⟨⟨halfwayController, hcontroller, ?_⟩, Page.smallRoutes, hroutes, ?_⟩
  · rw [hname]
    exact .of_isSome (by decide +kernel)
  · rw [hname]
    exact .of_isSome (by decide +kernel)

theorem stopped_small : ((perform ((Staged.addPage "a").request ⟨"/"⟩ true)).on Page.idleSetting unopened).1
    = .error ⟨[], .anchorMissing "'Rails.application.routes.draw do'" "/config/routes.rb"⟩ := by
  decide +kernel

/-- A page whose route could not be put in: it is refused when it is added again, and completed
without its view. -/
theorem rerun_after_stop_small :
    ((perform ((Staged.addPage "a").request ⟨"/"⟩ true)).on Page.idleSetting restored).1
        = .error ⟨[], .alreadyExists "View" "/app/views/home/a.html.erb"⟩
      ∧ ((perform ((Staged.addPage "a").request ⟨"/"⟩ true)).on Page.idleSetting restored).2.disk = restored.disk
      ∧ ((perform ((Staged.addPage "a").request ⟨"/"⟩ true)).on Page.idleSetting cleared).1 = .ok .completed
      ∧ (Staged.addPage "a").Done ⟨"/"⟩ ((perform ((Staged.addPage "a").request ⟨"/"⟩ true)).on Page.idleSetting cleared).2.disk := by
  have hmidway : (Staged.addPage "a").StopsMidway ⟨"/"⟩
      ⟨[], .anchorMissing "'Rails.application.routes.draw do'" "/config/routes.rb"⟩ := ⟨_, _, rfl⟩
  have hleft : ((perform ((Staged.addPage "a").request ⟨"/"⟩ true)).on Page.idleSetting unopened).2.disk.holds ((Staged.addPage "a").guard ⟨"/"⟩)
      = true := by
    decide +kernel
  have hrestored : restored.disk.holds ((Staged.addPage "a").guard ⟨"/"⟩) = true := by decide +kernel
  have hcleared : cleared.disk.holds ((Staged.addPage "a").guard ⟨"/"⟩) = false := by decide +kernel
  have hclear : (Staged.addPage "a").Clear ⟨"/"⟩ cleared.disk :=
    ⟨⟨["app".toList, "views".toList, "home".toList, "a.html.erb".toList], by decide +kernel⟩, by decide +kernel⟩
  have hclosed : cleared.disk.Closed := Disk.closed_of_forall_mem (by decide +kernel)
  have hagain := fun later => @rerun_after_stop ⟨"/"⟩ Page.idleSetting Page.idleSetting unopened later _ true
    (.addPage "a") stopped_small hmidway
  obtain ⟨hanswer, hdisk⟩ := (hagain restored (Project.on_open (by decide +kernel))).1 (hrestored.trans hleft.symm)
  have hback : cleared.disk.holds ((Staged.addPage "a").guard ⟨"/"⟩)
      ≠ ((perform ((Staged.addPage "a").request ⟨"/"⟩ true)).on Page.idleSetting unopened).2.disk.holds ((Staged.addPage "a").guard ⟨"/"⟩) :=
    fun h => Bool.false_ne_true (hcleared.symm.trans (h.trans hleft))
  have hcompletes := (hagain cleared (Project.on_open (by decide +kernel))).2 hback hclosed
    (ready_small (by decide +kernel) (by decide +kernel))
  exact ⟨hanswer.trans (congrArg Except.error (by decide +kernel)), hdisk, hcompletes.of_clear hclear⟩

/-- Restoring what a command did not find is not enough for it to complete: the page that was
added midway is refused for its own view. -/
theorem refused_after_restoring :
    ((perform ((Staged.addPage "a").request ⟨"/"⟩ true)).on Page.idleSetting unopened).1
        = .error ⟨[], .anchorMissing "'Rails.application.routes.draw do'" "/config/routes.rb"⟩
      ∧ ((perform ((Staged.addPage "a").request ⟨"/"⟩ true)).on Page.idleSetting unopened).2.disk.isFile (Project.view ⟨"/"⟩ "a") = true
      ∧ (Staged.addPage "a").Ready ⟨"/"⟩ Page.idleSetting restored true
      ∧ ((perform ((Staged.addPage "a").request ⟨"/"⟩ true)).on Page.idleSetting restored).1 ≠ .ok .completed
      ∧ ((perform ((Staged.addPage "a").request ⟨"/"⟩ true)).on Page.idleSetting restored).2.disk.readText (Project.routes ⟨"/"⟩)
        = .ok Page.smallRoutes
      ∧ ¬ Route.Declared "a" "a" Page.smallRoutes :=
  ⟨stopped_small, by decide +kernel, ready_small (by decide +kernel) (by decide +kernel), by decide +kernel,
    by decide +kernel, by unfold Route.Declared; decide +kernel⟩

end SiteScaffold.Command

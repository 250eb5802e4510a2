/-
Pages and layouts, one command at a time. In a project without links every directive of the
controller has the file of its layout, no view and no layout has two, and the views have
proper names (`Layout.Holds`). Each command keeps this, however it ends (`Page.carries_add`,
`Page.carries_remove`, `carries_add`, `carries_remove`):

- what a command makes is a file that was not there, so no layout is lost by it
  (`Holds.placeNew`), and what it discards is a layout without a directive or no layout at
  all (`Holds.discard`);
- a layout has its file before it gets a directive, and loses the directive before it loses
  the file;
- the directive is for one of the views, and none was found for that.
-/
import SiteScaffold.Proofs.Blueprint
import SiteScaffold.Proofs.Command.Carried
import SiteScaffold.Proofs.Patch.DirectiveEdits
import SiteScaffold.Proofs.Patch.HostFile
import SiteScaffold.Proofs.Project.AppFile

namespace SiteScaffold.Command.Layout

open Disk (Change Grown HoldsText IsPath IsStep Refilled Tree)
open Patch
open Patch.Directives (IsDirective Paired)
open Project (AppFile)
open Project.Part (app)

variable {project : Project} {top k : Key} {d : Text × Text} {ds ds' : List (Text × Text)}
  {disk disk' : Disk} {file : AppFile} {raw layout view what content path t t' : Text} {setting : Setting}

-- ========================================================================= the disk

/-- Whether the controller of a project declares these directives, each layout is a file, and
the views have proper names, where no link is in the folder of the application. -/
structure Holds (project : Project) (top : Key) (ds : List (Text × Text)) (disk : Disk) : Prop where
  tree : Tree (app project) top disk
  controller : ∃ t, disk.HoldsText project.homeController (top ++ AppFile.controller.place) t ∧ Paired t ds
  layouts : ∀ d ∈ ds, IsPath (project.layout d.1)
    ∧ ∃ x c, disk.lookup (top ++ (AppFile.layout d.1).place) = some (.file x c)
  views : ∀ page x c, disk.lookup (top ++ (AppFile.view page).place) = some (.file x c) →
    Name.IsNormal page ∧ page ≠ []

namespace Holds

variable (h : Holds project top ds disk)

include h

theorem isDirective (hd : d ∈ ds) : IsDirective d := by
  obtain ⟨t, -, hpaired⟩ := h.controller
  exact hpaired.proper d hd

theorem isFile_layout (hd : d ∈ ds) : disk.isFile (project.layout d.1) = true := by
  obtain ⟨hpath, x, c, hlookup⟩ := h.layouts d hd
  have hnamed : (AppFile.layout d.1).Named := (h.isDirective hd).layout
  have heq : project.layout d.1 = _ := AppFile.path_eq hnamed project
  rw [heq] at hpath ⊢
  exact Disk.isFile_iff.2 ⟨_, x, c, (h.tree.locate_entry (by simp [AppFile.place]) (AppFile.isPlain hnamed)).2
    ⟨hpath, rfl, hlookup⟩⟩

-- =================================================================== one step of the disk

/-- Folders that are made are no files. -/
theorem grown (hgrown : Grown AppFile.folderNames disk disk') : Holds project top ds disk' where
  tree := h.tree.grown hgrown AppFile.isStep_folderNames
  controller := by
    obtain ⟨t, hholds, hpaired⟩ := h.controller
    exact ⟨t, hholds.grown hgrown, hpaired⟩
  layouts := by
    intro d hd
    obtain ⟨hpath, x, c, hlookup⟩ := h.layouts d hd
    exact ⟨hpath, x, c, hgrown.kept _ _ hlookup⟩
  views := fun page x c hlookup => h.views page x c (hgrown.lookup_of_ne_folder hlookup (by simp))

/-- A file other than the controller comes or goes, but no layout with a directive goes. -/
theorem change (hfile : file ≠ .controller) (hchange : Change (top ++ file.place) disk disk')
    (hlayout : ∀ d ∈ ds, file = .layout d.1 → ∃ x c, disk'.lookup (top ++ file.place) = some (.file x c))
    (hnew : ∀ e, disk'.lookup (top ++ file.place) = some e →
      IsStep file.name ∧ file.Named ∧ ∀ page, file = .view page → page ≠ []) :
    Holds project top ds disk' where
  tree := by
    refine h.tree.change hchange fun k name e hlookup heq => ?_
    obtain ⟨-, hname⟩ := List.append_inj' (List.append_cancel_left heq) rfl
    obtain rfl : file.name = name := List.singleton_inj.1 hname
    rw [← heq] at hlookup
    obtain ⟨hstep, hnamed, -⟩ := hnew e hlookup
    exact ⟨hstep, (AppFile.isPlain_name hnamed).slash⟩
  controller := by
    obtain ⟨t, hholds, hpaired⟩ := h.controller
    refine ⟨t, hholds.congr hchange fun heq => ?_, hpaired⟩
    exact hfile (AppFile.place_inj (List.append_cancel_left heq)).symm
  layouts := by
    intro d hd
    obtain ⟨hpath, x, c, hlookup⟩ := h.layouts d hd
    refine ⟨hpath, ?_⟩
    by_cases heq : file = .layout d.1
    · rw [← heq]
      exact hlayout d hd heq
    · refine ⟨x, c, ?_⟩
      rw [hchange.same]
      · exact hlookup
      · exact fun hplace => heq (AppFile.place_inj (List.append_cancel_left hplace)).symm
  views := by
    intro page x c hlookup
    by_cases heq : file = .view page
    · rw [← heq] at hlookup
      obtain ⟨-, hnamed, hne⟩ := hnew _ hlookup
      refine ⟨?_, hne page heq⟩
      rw [heq] at hnamed
      exact hnamed
    · rw [hchange.same] at hlookup
      · exact h.views page x c hlookup
      · exact fun hplace => heq (AppFile.place_inj (List.append_cancel_left hplace)).symm

theorem eq_controller (hholds : disk.HoldsText project.homeController k t) :
    k = top ++ AppFile.controller.place := by
  obtain ⟨t', ⟨x', hlocate'⟩, -⟩ := h.controller
  obtain ⟨x, hlocate⟩ := hholds
  rw [hlocate'] at hlocate
  cases hlocate
  rfl

/-- The text of the controller, by whatever path it is read. -/
theorem paired (hholds : disk.HoldsText path (top ++ AppFile.controller.place) t) : Paired t ds := by
  obtain ⟨t', hholds', hpaired⟩ := h.controller
  obtain ⟨x', hlookup'⟩ := hholds'.lookup
  obtain ⟨x, hlookup⟩ := hholds.lookup
  rw [hlookup'] at hlookup
  cases hlookup
  exact hpaired

/-- A file may have another content if the controller then declares layouts that are there. -/
theorem refill (hholds : disk.HoldsText path k t) (hrefilled : Refilled k disk disk')
    (hcontroller : ∃ t', disk'.HoldsText project.homeController (top ++ AppFile.controller.place) t' ∧ Paired t' ds')
    (hlayouts : ∀ d ∈ ds', IsPath (project.layout d.1)
      ∧ ∃ x c, disk.lookup (top ++ (AppFile.layout d.1).place) = some (.file x c)) :
    Holds project top ds' disk' := by
  obtain ⟨x₀, hlookup⟩ := hholds.lookup
  obtain ⟨c₀, hlookup'⟩ := hrefilled.mode _ _ hlookup
  have hfile : ∀ j, (∃ x c, disk'.lookup j = some (.file x c)) ↔ ∃ x c, disk.lookup j = some (.file x c) := by
    intro j
    by_cases hj : j = k
    · rw [hj, hlookup, hlookup']
      exact iff_of_true ⟨_, _, rfl⟩ ⟨_, _, rfl⟩
    · rw [hrefilled.same j hj]
  exact {
    tree := by
      refine h.tree.change (hholds.change_of_refilled h.tree.closed hrefilled) fun j name e _ heq => ?_
      rw [heq] at hlookup
      obtain ⟨hstep, hslash, -⟩ := h.tree.plain j name _ hlookup
      exact ⟨hstep, hslash⟩
    controller := hcontroller
    layouts := by
      intro d hd
      rw [hfile]
      exact hlayouts d hd
    views := by
      intro page x c hview
      obtain ⟨x', c', hview'⟩ := (hfile _).1 ⟨x, c, hview⟩
      exact h.views page x' c' hview' }

/-- A file may be patched, be it the controller or any other, if no directive comes with that. -/
theorem patch (hholds : disk.HoldsText path k t) (hnew : disk'.HoldsText path k t')
    (hrefilled : Refilled k disk disk') (hkeeps : Paired t ds → ∃ ds', ds'.Sublist ds ∧ Paired t' ds') :
    ∃ ds, Holds project top ds disk' := by
  have hchange := hholds.change_of_refilled h.tree.closed hrefilled
  obtain ⟨t₀, hcontroller, hpaired⟩ := h.controller
  by_cases hk : k = top ++ AppFile.controller.place
  · subst hk
    obtain ⟨ds', hsub, hpaired'⟩ := hkeeps (h.paired hholds)
    exact ⟨ds', h.refill hholds hrefilled ⟨t', hcontroller.at hchange hnew, hpaired'⟩
      fun d hd => h.layouts d (hsub.subset hd)⟩
  · exact ⟨ds, h.refill hholds hrefilled ⟨t₀, hcontroller.congr hchange (Ne.symm hk), hpaired⟩ h.layouts⟩

-- =================================================================== one edit of the disk

/-- A file is generated where none was, and is there if that goes well. -/
theorem placeNew {answer : Except Failure Unit} (hfile : file ≠ .controller) (hnamed : file.Named)
    (hview : ∀ page, file = .view page → page ≠ [])
    (hplace : (Blueprint.placeNew (file.path project) what content).on disk = (answer, disk')) :
    Holds project top ds disk' ∧ (answer = .ok () → IsPath (file.path project)
      ∧ ∃ x c, disk'.lookup (top ++ file.place) = some (.file x c)) := by
  rw [AppFile.path_eq hnamed] at hplace ⊢
  rcases Blueprint.placeNew_cases h.tree file.folder_ne_nil (AppFile.isPlain hnamed)
    (AppFile.grown_makeFolders h.tree hfile) AppFile.isStep_folderNames hplace with
    ⟨⟨failure, rfl⟩, hgrown⟩ | ⟨rfl, hpath, hstep, grown, hgrown, hchange, hnew⟩
  · exact ⟨h.grown hgrown, fun hok => by cases hok⟩
  · refine ⟨(h.grown hgrown).change hfile hchange (fun d _ _ => ⟨_, _, hnew⟩) fun e _ => ?_,
      fun _ => ⟨hpath, _, _, hnew⟩⟩
    exact ⟨hstep, hnamed, hview⟩

/-- A file that is no layout with a directive is discarded. -/
theorem discard {answer : Except Failure Bool} (hfile : file ≠ .controller) (hnamed : file.Named)
    (hlayout : ∀ d ∈ ds, file ≠ .layout d.1)
    (hdiscard : (Blueprint.discard (file.path project)).on disk = (answer, disk')) :
    Holds project top ds disk' := by
  rw [AppFile.path_eq hnamed] at hdiscard
  rcases Blueprint.discard_cases h.tree (AppFile.isPlain hnamed) hdiscard with rfl | ⟨hchange, hgone⟩
  · exact h
  · refine h.change hfile hchange (fun d hd heq => absurd heq (hlayout d hd)) fun e hlookup => ?_
    have hnone : disk'.lookup (top ++ file.place) = none := hgone
    rw [hnone] at hlookup
    cases hlookup

/-- A fragment is put into some file, and no directive with it. -/
theorem insertFragment {fragment : Fragment} {answer : Except Failure Patch.Outcome}
    (hkeeps : ∀ t t', fragment.insert t = .ok (some t') → Paired t ds → Paired t' ds)
    (hinsert : (HostFile.insert path fragment).on disk = (answer, disk')) : ∃ ds, Holds project top ds disk' := by
  rcases HostFile.insert_cases hinsert with ⟨-, rfl⟩ | ⟨k, t, patched, hholds, hpatched, -, hnew, hrefilled⟩
  · exact ⟨ds, h⟩
  · refine h.patch hholds hnew hrefilled fun hpaired => ⟨ds, .refl ds, ?_⟩
    cases patched with
    | none => exact hpaired
    | some new => exact hkeeps t new hpatched hpaired

/-- A fragment is taken out of some file. -/
theorem removeFragment {fragment : Fragment} {answer : Except Failure Patch.Outcome}
    (hkeeps : ∀ t t', fragment.remove t = some t' → Paired t ds → ∃ ds', ds'.Sublist ds ∧ Paired t' ds')
    (hremove : (HostFile.remove path fragment).on disk = (answer, disk')) : ∃ ds, Holds project top ds disk' := by
  rcases HostFile.remove_cases hremove with ⟨-, rfl⟩ | ⟨k, t, hholds, -, hnew, hrefilled⟩
  · exact ⟨ds, h⟩
  · refine h.patch hholds hnew hrefilled fun hpaired => ?_
    cases hpatched : fragment.remove t with
    | none => exact ⟨ds, .refl ds, hpaired⟩
    | some new => exact hkeeps t new hpatched hpaired

/-- A layout that is there gets a directive for a view without one. -/
theorem insert_directive {answer : Except Failure Patch.Outcome} (hd : IsDirective (layout, view))
    (hnone : ∀ l, (l, view) ∉ ds) (hlayout : IsPath (project.layout layout)
      ∧ ∃ x c, disk.lookup (top ++ (AppFile.layout layout).place) = some (.file x c))
    (hinsert : (HostFile.insert project.homeController (.layout layout view homeClass)).on disk = (answer, disk')) :
    ∃ ds, Holds project top ds disk' := by
  rcases HostFile.insert_cases hinsert with ⟨-, rfl⟩ | ⟨k, t, patched, hholds, hpatched, -, hnew, hrefilled⟩
  · exact ⟨ds, h⟩
  · obtain rfl := h.eq_controller hholds
    have hpaired := h.paired hholds
    cases patched with
    | none => exact ⟨ds, h.refill hholds hrefilled ⟨t, hnew, hpaired⟩ h.layouts⟩
    | some new =>
        have hunset : LayoutDirective.layoutFor? view t = none := by
          cases hfound : LayoutDirective.layoutFor? view t with
          | none => rfl
          | some l => exact absurd ((hpaired.layoutFor?_eq_some_iff hd.view hd.view_ne_nil).1 hfound) (hnone l)
        obtain ⟨ds', hperm, hpaired'⟩ := hpaired.insert hd hunset hpatched
        refine ⟨ds', h.refill hholds hrefilled ⟨new, hnew, hpaired'⟩ fun d hmem => ?_⟩
        rcases List.mem_cons.1 (hperm.mem_iff.1 hmem) with rfl | hmem
        · exact hlayout
        · exact h.layouts d hmem

/-- A layout has no directive any more unless the removal fails. -/
theorem remove_directive {answer : Except Failure Patch.Outcome}
    (hremove : (HostFile.remove project.homeController (.layout layout [] homeClass)).on disk = (answer, disk')) :
    ∃ ds, Holds project top ds disk' ∧ ∀ outcome, answer = .ok outcome → layout ∉ ds.map Prod.fst := by
  rcases HostFile.remove_cases hremove with ⟨⟨failure, rfl⟩, rfl⟩ | ⟨k, t, hholds, -, hnew, hrefilled⟩
  · exact ⟨ds, h, fun outcome hok => by cases hok⟩
  · obtain rfl := h.eq_controller hholds
    obtain ⟨ds', hsub, hgone, hpaired'⟩ := (h.paired hholds).remove layout
    exact ⟨ds', h.refill hholds hrefilled ⟨_, hnew, hpaired'⟩ fun d hd => h.layouts d (hsub.subset hd),
      fun _ _ => hgone⟩

-- ========================================================================== read off it

/-- The views that are listed have proper names. -/
theorem homeViews {views : List Text} (hviews : project.homeViews.on disk = (.ok views, disk')) :
    disk' = disk ∧ ∀ view ∈ views, Name.IsNormal view ∧ view ≠ [] := by
  have hplace : project.path Project.homeViewsName = Path.under (app project) (AppFile.view []).folder :=
    AppFile.path_homeViews project []
  unfold Project.homeViews at hviews
  rw [Edit.on_bind_ok (Edit.on_ask _)] at hviews
  cases hfolder : disk.isFolder (project.path Project.homeViewsName) with
  | false =>
      rw [hfolder, if_pos (by decide)] at hviews
      cases hviews
      exact ⟨rfl, by simp⟩
  | true =>
      rw [hfolder, if_neg (by decide)] at hviews
      obtain ⟨entries, disk₁, hlook, hlisted⟩ := Edit.on_bind_eq_ok.1 hviews
      obtain ⟨hlist, rfl⟩ := Edit.on_look_eq_ok.1 hlook
      cases hlisted
      refine ⟨rfl, fun view hview => ?_⟩
      rw [List.mem_mergeSort, List.mem_filter, List.mem_filterMap] at hview
      obtain ⟨⟨⟨name, entry⟩, hentry, hname⟩, -⟩ := hview
      rw [hplace] at hlist
      rw [h.tree.list (AppFile.folder_ne_nil _) (AppFile.isPlain_folder (.view [])) hlist,
        Disk.mem_children_iff] at hentry
      dsimp only at hname
      split at hname
      next hfile =>
        rw [Text.before?_eq_some_iff.1 hname, List.append_assoc] at hentry
        cases entry with
        | file x c => exact h.views view x c hentry
        | folder | link target => cases hfile
      next => cases hname

/-- A search for the layout of a view comes to what the directives say. -/
theorem layoutFor? (hview : Name.IsNormal view) (hne : view ≠ []) :
    ∃ found, (Patch.layoutFor? project.homeController view).on disk = (.ok found, disk)
      ∧ ∀ layout, found = some layout ↔ (layout, view) ∈ ds := by
  obtain ⟨t, hholds, hpaired⟩ := h.controller
  refine ⟨LayoutDirective.layoutFor? view t, ?_, fun layout => hpaired.layoutFor?_eq_some_iff hview hne⟩
  have hthere : disk.holds project.homeController = true := by
    obtain ⟨x, hlocate⟩ := hholds
    exact Disk.holds_iff.2 ⟨_, _, hlocate⟩
  unfold Patch.layoutFor?
  rw [Edit.on_bind_ok (Edit.on_ask _), hthere, if_pos rfl, Edit.on_bind_ok (Edit.on_readText hholds)]
  rfl

end Holds

-- ========================================================================== commands

/-- Whether the controller declares layouts that are there for views, whichever they are. -/
def Linked (project : Project) (top : Key) (disk : Disk) : Prop := ∃ ds, Holds project top ds disk

/-- Whether no layout is set for a view, besides. -/
def Unset (project : Project) (top : Key) (view : Text) (disk : Disk) : Prop :=
  ∃ ds, Holds project top ds disk ∧ ∀ l, (l, view) ∉ ds

/-- Whether a layout is there to be set for it. -/
def Ready (project : Project) (top : Key) (layout view : Text) (disk : Disk) : Prop :=
  ∃ ds, Holds project top ds disk ∧ (∀ l, (l, view) ∉ ds) ∧ IsPath (project.layout layout)
    ∧ ∃ x c, disk.lookup (top ++ (AppFile.layout layout).place) = some (.file x c)

/-- Whether a layout has no directive. -/
def Undeclared (project : Project) (top : Key) (layout : Text) (disk : Disk) : Prop :=
  ∃ ds, Holds project top ds disk ∧ layout ∉ ds.map Prod.fst

theorem Unset.linked (h : Unset project top view disk) : Linked project top disk := by
  obtain ⟨ds, hholds, -⟩ := h
  exact ⟨ds, hholds⟩

section Steps

open Work (Carries)

theorem carries_placeNew {file : AppFile} (hfile : file ≠ .controller) (hnamed : file.Named)
    (hview : ∀ page, file = .view page → page ≠ []) :
    (Work.edit (Blueprint.placeNew (file.path project) what content)).Carries setting (Linked project top)
      (Linked project top) fun _ => Linked project top := by
  refine .edit_keeps fun disk hlinked => ?_
  obtain ⟨ds, hholds⟩ := hlinked
  exact ⟨ds, (hholds.placeNew hfile hnamed hview rfl).1⟩

theorem carries_discard {file : AppFile} (hfile : file ≠ .controller) (hnamed : file.Named)
    (hlayout : ∀ l, file ≠ .layout l) :
    (Work.edit (Blueprint.discard (file.path project))).Carries setting (Linked project top)
      (Linked project top) fun _ => Linked project top := by
  refine .edit_keeps fun disk hlinked => ?_
  obtain ⟨ds, hholds⟩ := hlinked
  exact ⟨ds, hholds.discard hfile hnamed (fun d _ => hlayout d.1) rfl⟩

theorem carries_insertFragment {fragment : Fragment}
    (hkeeps : ∀ ds t t', fragment.insert t = .ok (some t') → Paired t ds → Paired t' ds) :
    (Work.edit (HostFile.insert path fragment)).Carries setting (Linked project top) (Linked project top)
      fun _ => Linked project top :=
  .edit_keeps fun _ ⟨ds, hholds⟩ => hholds.insertFragment (hkeeps ds) rfl

theorem carries_removeFragment {fragment : Fragment}
    (hkeeps : ∀ ds t t', fragment.remove t = some t' → Paired t ds → ∃ ds', ds'.Sublist ds ∧ Paired t' ds') :
    (Work.edit (HostFile.remove path fragment)).Carries setting (Linked project top) (Linked project top)
      fun _ => Linked project top :=
  .edit_keeps fun _ ⟨ds, hholds⟩ => hholds.removeFragment (hkeeps ds) rfl

end Steps

end SiteScaffold.Command.Layout

namespace SiteScaffold.Command.Page

open Patch (Fragment)
open Patch.Directives (Paired)
open Layout (Linked carries_placeNew carries_discard carries_insertFragment carries_removeFragment)
open Project (AppFile)
open Work (Carries)

variable {project : Project} {top : Key} {page raw : Text} {assumeYes : Bool} {setting : Setting}

-- ============================================================================= pages

/-- Adding a page leaves the directives alone. -/
theorem carries_add (hraw : raw ≠ []) :
    (Page.add project.root raw).Carries setting (Linked project top) (Linked project top)
      fun _ => Linked project top := by
  have hnormal : Name.IsNormal (Name.normalize raw) := ⟨raw, rfl⟩
  have hne : Name.normalize raw ≠ [] := Name.normalize_ne_nil hraw
  have hview : AppFile.view (Name.normalize raw) ≠ .controller := by simp
  have hsheet : AppFile.stylesheet (Name.normalize raw) ≠ .controller := by simp
  have haction : ∀ ds t t', (Fragment.action (Name.normalize raw)).insert t = .ok (some t') → Paired t ds →
      Paired t' ds := fun _ _ _ hinsert hpaired => hpaired.insertAction hnormal hinsert
  have hroute : ∀ ds t t', (Fragment.route (Name.normalize raw) (Name.normalize raw)).insert t = .ok (some t') →
      Paired t ds → Paired t' ds := fun _ _ _ hinsert hpaired => hpaired.insertRoute hnormal hnormal hinsert
  apply carries_opened
  apply Carries.bind (carries_placeNew hview hnormal (by simpa using hne))
  intro _
  apply Carries.bind .report
  intro _
  apply carries_stylesheet (carries_placeNew hsheet hnormal (by simp))
  apply carries_patch (carries_insertFragment haction)
  apply carries_patch (carries_insertFragment hroute)
  exact .bind .report fun _ => .pure fun _ => id

/-- Removing a page may remove directives, if they stand in its action. -/
theorem carries_remove :
    (Page.remove project.root raw assumeYes).Carries setting (Linked project top) (Linked project top)
      fun _ => Linked project top := by
  have hnormal : Name.IsNormal (Name.normalize raw) := ⟨raw, rfl⟩
  have hview : AppFile.view (Name.normalize raw) ≠ .controller := by simp
  have hsheet : AppFile.stylesheet (Name.normalize raw) ≠ .controller := by simp
  have haction : ∀ ds t t', (Fragment.action (Name.normalize raw)).remove t = some t' → Paired t ds →
      ∃ ds', ds'.Sublist ds ∧ Paired t' ds' := fun _ _ _ hremove hpaired => hpaired.removeAction hremove
  have hroute : ∀ ds t t', (Fragment.route (Name.normalize raw) (Name.normalize raw)).remove t = some t' →
      Paired t ds → ∃ ds', ds'.Sublist ds ∧ Paired t' ds' := fun _ _ _ hremove hpaired => hpaired.removeRoute hremove
  apply carries_opened
  apply Carries.ite fun _ => .fail_bind fun _ => id
  intro _
  apply carries_checked
  apply carries_agreed
  apply Carries.bind (carries_discard hview hnormal (by simp))
  intro _
  apply Carries.bind .report
  intro _
  apply Carries.bind (carries_discard hsheet hnormal (by simp))
  intro discarded
  refine .optional .report ?_
  apply carries_patch (carries_removeFragment haction)
  apply carries_patch (carries_removeFragment hroute)
  exact .bind .report fun _ => .pure fun _ => id

end SiteScaffold.Command.Page

namespace SiteScaffold.Command.Layout

open Disk (IsPath)
open Patch
open Patch.Directives (IsDirective)
open Project (AppFile)
open Work (Carries)

variable {project : Project} {top : Key} {raw layout view : Text} {asked : Option Text}
  {assumeYes : Bool} {setting : Setting}

-- =========================================================================== layouts

/-- The view that a layout is for is one of those listed. -/
theorem carries_viewFor {views : List Text} :
    (viewFor layout views asked assumeYes).Carries setting (Linked project top) (Linked project top)
      fun view disk => view ∈ views ∧ Linked project top disk := by
  unfold viewFor
  cases asked with
  | some raw => exact .ite (fun hmem => .pure fun _ h => ⟨hmem, h⟩) fun _ => .fail fun _ => id
  | none =>
      apply Carries.ite fun hmem => .bind .report fun _ => .pure fun _ h => ⟨hmem, h⟩
      intro _
      apply Carries.ite fun _ => .fail fun _ => id
      intro _
      apply Carries.ite fun _ => .fail fun _ => id
      intro _
      apply Carries.bind (Carries.chooses fun _ => id)
      intro chosen
      apply Carries.of_and
      intro hchosen
      cases chosen with
      | some view => exact .pure fun _ h => ⟨hchosen view rfl, h⟩
      | none => exact .fail fun _ => id

/-- A layout that is ready gets its directive, or the controller stays as it is. -/
theorem carries_insertDirective (hd : IsDirective (layout, view)) :
    (Work.edit (HostFile.insert project.homeController (.layout layout view homeClass))).Carries
      setting (Linked project top) (Ready project top layout view) fun _ => Linked project top := by
  refine .edit fun disk hready outcome disk' hinsert => ?_
  obtain ⟨ds, hholds, hnone, hlayout⟩ := hready
  have hafter := hholds.insert_directive hd hnone hlayout hinsert
  cases outcome with
  | ok answer | error failure => exact hafter

theorem carries_homeViews :
    (Work.edit project.homeViews).Carries setting (Linked project top) (Linked project top)
      fun views disk => (∀ view ∈ views, Name.IsNormal view ∧ view ≠ []) ∧ Linked project top disk := by
  refine .edit fun disk hlinked outcome disk' hviews => ?_
  obtain ⟨ds, hholds⟩ := hlinked
  cases outcome with
  | ok views =>
      obtain ⟨rfl, hproper⟩ := hholds.homeViews hviews
      exact ⟨hproper, ds, hholds⟩
  | error failure =>
      have hdisk := (project.still_homeViews disk trivial).1
      rw [hviews] at hdisk
      rw [show disk' = disk from hdisk]
      exact ⟨ds, hholds⟩

/-- A view that no layout is found for has none. -/
theorem carries_layoutFor? (hview : Name.IsNormal view) (hne : view ≠ []) :
    (Work.edit (layoutFor? project.homeController view)).Carries setting (Linked project top)
      (Linked project top) fun found disk => Linked project top disk
        ∧ (found = none → Unset project top view disk) := by
  refine .edit fun disk hlinked outcome disk' hfind => ?_
  obtain ⟨ds, hholds⟩ := hlinked
  obtain ⟨found, hfound, hlayouts⟩ := hholds.layoutFor? hview hne
  rw [hfound] at hfind
  cases hfind
  refine ⟨⟨ds, hholds⟩, fun hnone => ⟨ds, hholds, fun l hmem => ?_⟩⟩
  rw [hnone] at hlayouts
  cases (hlayouts l).2 hmem

/-- A layout is ready once its file is made. -/
theorem carries_placeLayout (hlayout : Name.IsNormal layout) {what content : Text} :
    (Work.edit (Blueprint.placeNew (project.layout layout) what content)).Carries setting
      (Linked project top) (Unset project top view) fun _ => Ready project top layout view := by
  refine .edit fun disk hunset outcome disk' hplace => ?_
  obtain ⟨ds, hholds, hnone⟩ := hunset
  have hfile : AppFile.layout layout ≠ .controller := by simp
  obtain ⟨hafter, hthere⟩ := hholds.placeNew hfile hlayout (by simp) hplace
  cases outcome with
  | ok => exact ⟨ds, hafter, hnone, hthere rfl⟩
  | error failure => exact ⟨ds, hafter⟩

/-- Adding a layout gives it a directive only for a view without one, and only once its file
is there. -/
theorem carries_add (hraw : raw ≠ []) :
    (Layout.add project.root raw asked assumeYes).Carries setting (Linked project top)
      (Linked project top) fun _ => Linked project top := by
  have hnormal : Name.IsNormal (Name.normalize raw) := ⟨raw, rfl⟩
  have hne : Name.normalize raw ≠ [] := Name.normalize_ne_nil hraw
  have hfile : AppFile.layout (Name.normalize raw) ≠ .controller := by simp
  apply carries_opened
  apply carries_checked
  apply Carries.bind carries_homeViews
  intro views
  apply Carries.of_and
  intro hproper
  apply Carries.bind carries_viewFor
  intro view
  apply Carries.of_and
  intro hmem
  obtain ⟨hview, hviewne⟩ := hproper view hmem
  apply Carries.bind (carries_layoutFor? hview hviewne)
  intro found
  cases found with
  | some present => exact .fail_bind fun _ h => h.1
  | none =>
      refine .weaken ?_ (fun _ h => h.2 rfl) fun _ _ => id
      apply Carries.bind_still (.edit (Edit.still_ask _)) fun _ => Unset.linked
      intro title
      apply Carries.bind (carries_placeLayout hnormal)
      intro _
      apply Carries.bind .report
      intro _
      apply Carries.bind (carries_declareLayout (carries_insertDirective ⟨hnormal, hne, hview, hviewne⟩))
      intro _
      exact .bind .report fun _ => .pure fun _ => id

/-- A layout loses its directive, or the controller cannot be read. -/
theorem carries_undeclare :
    (Work.edit (HostFile.remove project.homeController (.layout layout [] homeClass))).Carries setting
      (Linked project top) (Linked project top) fun _ => Undeclared project top layout := by
  refine .edit fun disk hlinked outcome disk' hremove => ?_
  obtain ⟨ds, hholds⟩ := hlinked
  obtain ⟨ds', hafter, hgone⟩ := hholds.remove_directive hremove
  cases outcome with
  | ok answer => exact ⟨ds', hafter, hgone answer rfl⟩
  | error failure => exact ⟨ds', hafter⟩

/-- A layout without a directive may go. -/
theorem carries_discardLayout (hlayout : Name.IsNormal layout) :
    (Work.edit (Blueprint.discard (project.layout layout))).Carries setting (Linked project top)
      (Undeclared project top layout) fun _ => Linked project top := by
  refine .edit fun disk hundeclared outcome disk' hdiscard => ?_
  obtain ⟨ds, hholds, hgone⟩ := hundeclared
  have hfile : AppFile.layout layout ≠ .controller := by simp
  have hafter : Linked project top disk' := by
    refine ⟨ds, hholds.discard hfile hlayout (fun d hd heq => hgone ?_) hdiscard⟩
    cases heq
    exact List.mem_map_of_mem hd
  cases outcome with
  | ok found | error failure => exact hafter

/-- Removing a layout takes its directive first. -/
theorem carries_remove :
    (Layout.remove project.root raw assumeYes).Carries setting (Linked project top)
      (Linked project top) fun _ => Linked project top := by
  have hnormal : Name.IsNormal (Name.normalize raw) := ⟨raw, rfl⟩
  apply carries_opened
  apply carries_checked
  apply carries_agreed
  apply carries_patch carries_undeclare
  apply Carries.bind (carries_discardLayout hnormal)
  intro _
  exact .bind .report fun _ => .bind .report fun _ => .pure fun _ => id

end SiteScaffold.Command.Layout

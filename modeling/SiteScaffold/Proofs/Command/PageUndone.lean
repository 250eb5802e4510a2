/-
Adding a page and removing it again. If both go through, all files and links are as they were
before, but for a stylesheet that the page had already: it is kept when the page is added and
goes when the page is removed (`remove_undoes_add`, `remove_takes_stylesheet`).

What is written in between is followed place by place. The two commands write the view and the
stylesheet and the texts of two host files, which may be one (`Touched`). That the second
command finds the host files at all shows that none of them was the stylesheet that it
discarded before (`Worded.of_removed`).
-/
import SiteScaffold.Proofs.Command.PageRun
import SiteScaffold.Proofs.Patch.Presence

namespace SiteScaffold.Command.Page

open Disk (AgreeBut Change Grown Refilled Vacant)
open Patch
open Patch.ControllerAction (definition)
open Patch.Pages (Unused)
open Patch.Route (pageDeclaration pageLine)
open Project (Part)
open Text (NoRun)

variable {project : Project} {controller routes page raw path : Text} {disk disk' disk'' : Disk} {site : Site}
  {setting : Setting} {j k here there : Key} {e : Entry} {places hosts : List Key}
  {outcome outcome' : Patch.Outcome}

-- ==================================================================== what is touched

/-- Whether two disks have the same files and links except at some places, and files of the
same modes at those of the host files. -/
structure Touched (places hosts : List Key) (disk disk' : Disk) : Prop where
  same : ∀ k e, e ≠ .folder → k ∉ places → k ∉ hosts →
    (disk'.lookup k = some e ↔ disk.lookup k = some e)
  mode : ∀ k ∈ hosts, ∀ x c, disk.lookup k = some (.file x c) → ∃ c', disk'.lookup k = some (.file x c')

namespace Touched

theorem trans (h : Touched places hosts disk disk') (h' : Touched places hosts disk' disk'') :
    Touched places hosts disk disk'' where
  same := fun k e hne hplaces hhosts => (h'.same k e hne hplaces hhosts).trans (h.same k e hne hplaces hhosts)
  mode := by
    intro k hk x c hfile
    obtain ⟨c', hfile'⟩ := h.mode k hk x c hfile
    exact h'.mode k hk x c' hfile'

theorem of_grown {names : List Text} (h : Grown names disk disk') : Touched places hosts disk disk' where
  same := fun k e hne _ _ => ⟨fun hk => h.lookup_of_ne_folder hk hne, h.kept k e⟩
  mode := fun k _ _ c hfile => ⟨c, h.kept k _ hfile⟩

theorem of_agreeBut (h : AgreeBut j disk disk') (hplace : j ∈ places) (hhost : j ∉ hosts) :
    Touched places hosts disk disk' where
  same := by
    intro k e _ hk _
    rw [h k (by rintro rfl; exact hk hplace)]
  mode := by
    intro k hk x c hfile
    refine ⟨c, ?_⟩
    rw [h k (by rintro rfl; exact hhost hk)]
    exact hfile

theorem of_refilled (h : Refilled j disk disk') (hhost : j ∈ hosts) : Touched places hosts disk disk' where
  same := by
    intro k e _ _ hk
    rw [h.same k (by rintro rfl; exact hk hhost)]
  mode := by
    intro k hk x c hfile
    by_cases heq : k = j
    · rw [heq] at hfile ⊢
      exact h.mode x c hfile
    · exact ⟨c, by rw [h.same k heq]; exact hfile⟩

/-- A host file with its old text is the old file. -/
theorem lookup_host {path' t : Text} (h : Touched places hosts disk disk') (hhost : k ∈ hosts)
    (hholds : disk.HoldsText path k t) (hholds' : disk'.HoldsText path' k t) :
    disk'.lookup k = disk.lookup k := by
  obtain ⟨x, hlookup⟩ := hholds.lookup
  obtain ⟨x', hlookup'⟩ := hholds'.lookup
  obtain ⟨c, hmode⟩ := h.mode k hhost x _ hlookup
  rw [hlookup'] at hmode
  cases hmode
  rw [hlookup, hlookup']

end Touched

-- =========================================================================== host files

theorem refilled_unique {edit : Edit Patch.Outcome} {answer : Except Failure Patch.Outcome}
    (h : edit.on disk = (answer, disk')) {answer' : Except Failure Patch.Outcome}
    (h' : edit.on disk = (answer', disk'')) : disk' = disk'' := by
  rw [h] at h'
  cases h'
  rfl

/-- A path to a text file on one disk leads there on every other that has all of its
entries. -/
theorem locate_mono {follow : Bool} (hkept : ∀ k e, disk.lookup k = some e → disk'.lookup k = some e)
    (h : disk.locate follow path = .ok (.entry k e)) : disk'.locate follow path = .ok (.entry k e) := by
  obtain ⟨hispath, hleads⟩ := Disk.locate_eq_ok_iff.1 h
  exact Disk.locate_eq_ok_iff.2 ⟨hispath, hleads.mono hkept⟩

/-- An action that is put in and was not there changes the text. -/
theorem patched_of_inserted {disk₁ : Disk} (hcontroller : disk.HoldsText path here controller)
    (habsent : (ControllerAction.definition page).occursIn controller = false)
    (haction : (HostFile.insert path (.action page)).on disk = (.ok outcome, disk₁)) :
    ∃ patched, ControllerAction.insert page controller = .ok (some patched) := by
  cases hinsert : ControllerAction.insert page controller with
  | error refusal =>
      rw [HostFile.insert_on_error (.action page) hcontroller hinsert] at haction
      cases haction
  | ok patched =>
      rcases ControllerAction.insert_cases hinsert with ⟨-, hdefined⟩ | ⟨x, y, -, -, -, rfl⟩
      · rw [habsent] at hdefined
        cases hdefined
      · exact ⟨_, rfl⟩

/-- If a page's action and then its route could be put in, the texts were made for both. -/
theorem exists_site_of_inserted {disk₁ disk₂ : Disk} (hclosed : disk.Closed)
    (hcontroller : disk.HoldsText project.homeController here controller)
    (hroutes : disk.HoldsText project.routes there routes) (hrun : NoRun controller)
    (hunused : Unused controller routes page)
    (haction : (HostFile.insert project.homeController (.action page)).on disk = (.ok outcome, disk₁))
    (hroute : (HostFile.insert project.routes (.route page page)).on disk₁ = (.ok outcome', disk₂)) :
    ∃ site : Site, site.project = project ∧ site.controller = here ∧ site.routes = there
      ∧ site.Sound (· = page) ∧ site.texts.controller [] [] = controller
      ∧ site.texts.routes [] [] = routes ∧ Worded site [page] [] disk₁ ∧ Worded site [page] [page] disk₂
      ∧ Refilled here disk disk₁ ∧ Refilled there disk₁ disk₂ := by
  have hsame : here = there → controller = routes := by
    rintro rfl
    exact hcontroller.text_unique hroutes
  obtain ⟨patched, hinsert⟩ := patched_of_inserted hcontroller hunused.action.absent haction
  obtain ⟨disk₁', hedit, hnew, hrefilled⟩ := HostFile.insert_on (.action page) hcontroller hinsert
  obtain rfl := refilled_unique hedit haction
  have hchange := hcontroller.change hclosed hnew hrefilled.same
  have hroutes' : disk₁'.HoldsText project.routes there (if here = there then patched else routes) := by
    by_cases heq : here = there
    · rw [if_pos heq]
      rw [← heq] at hroutes ⊢
      exact hroutes.at hchange hnew
    · rw [if_neg heq]
      exact hroutes.congr hchange (Ne.symm heq)
  cases hline : Route.insertPage page page (if here = there then patched else routes) with
  | error refusal =>
      rw [HostFile.insert_on_error (.route page page) hroutes' hline] at hroute
      cases hroute
  | ok patched' =>
      obtain ⟨texts, htakes, hshared, halone, halone', htext, htext'⟩ :=
        Patch.Pages.exists_texts_of_inserted hsame hrun hunused hinsert hline
      -- the place of the manifest does not matter here
      have hsound : Site.Sound ⟨project, texts, here, there, []⟩ (· = page) :=
        ⟨htakes, fun p hp => by rw [hp]; exact hunused.action.normal, hshared, halone, halone'⟩
      have hworded : Worded ⟨project, texts, here, there, []⟩ [] [] disk :=
        ⟨hclosed, by rw [htext]; exact hcontroller, by rw [htext']; exact hroutes⟩
      obtain ⟨disk₁, hedit₁, hworded₁, -⟩ :=
        hworded.insertAction hsound (by simp) (by simp) rfl (by simp)
      obtain rfl := refilled_unique hedit₁ hedit
      obtain ⟨disk₂', hedit₂, hworded₂, hrefilled₂⟩ :=
        hworded₁.insertRoute hsound (by simp) (by simp) rfl (by simp)
      obtain rfl := refilled_unique hedit₂ hroute
      exact ⟨_, rfl, rfl, rfl, hsound, htext, htext', hworded₁, hworded₂, hrefilled, hrefilled₂⟩

/-- A fragment can be taken out of a text file only. -/
theorem holdsText_of_remove {fragment : Fragment}
    (h : (HostFile.remove path fragment).on disk = (.ok outcome, disk')) :
    ∃ k t, disk.HoldsText path k t := by
  obtain ⟨t, disk₁, hread, -⟩ := Edit.on_bind_eq_ok.1 h
  obtain ⟨htext, -⟩ := Edit.on_look_eq_ok.1 hread
  obtain ⟨k, hholds⟩ := Disk.readText_eq_ok_iff.1 htext
  exact ⟨k, t, hholds⟩

/-- The text that a path leads to on a disk with fewer entries is the same. -/
theorem holdsText_of_kept {t t' : Text} (hkept : ∀ k e, disk'.lookup k = some e → disk.lookup k = some e)
    (h : disk.HoldsText path k t) (h' : disk'.HoldsText path j t') : disk'.HoldsText path k t := by
  obtain ⟨x, hlocate⟩ := h
  obtain ⟨x', hlocate'⟩ := h'
  have hsame := locate_mono hkept hlocate'
  rw [hlocate] at hsame
  cases hsame
  exact ⟨x, hlocate'⟩

/-- If a page's action and then its route could be taken out after entries went, the host files
were not among those. -/
theorem Worded.of_removed {disk₁ disk₂ disk₃ : Disk} (hsound : site.Sound (· = page))
    (h : Worded site [page] [page] disk) (hclosed : disk₁.Closed)
    (hkept : ∀ k e, disk₁.lookup k = some e → disk.lookup k = some e)
    (haction : (HostFile.remove site.project.homeController (.action page)).on disk₁
      = (.ok outcome, disk₂))
    (hroute : (HostFile.remove site.project.routes (.route page page)).on disk₂ = (.ok outcome', disk₃)) :
    Worded site [page] [page] disk₁ ∧ Worded site [] [] disk₃
      ∧ Refilled site.controller disk₁ disk₂ ∧ Refilled site.routes disk₂ disk₃ := by
  obtain ⟨k, t, hholds⟩ := holdsText_of_remove haction
  have hcontroller := holdsText_of_kept hkept h.controllerText hholds
  -- the file of routes was there before the controller was written
  have hroutes : ∃ j t', disk₁.HoldsText site.project.routes j t' := by
    obtain ⟨j, t', x, hlocate⟩ := holdsText_of_remove hroute
    obtain ⟨disk₂', hedit, hnew, hrefilled⟩ := HostFile.remove_on (.action page) hcontroller
    obtain rfl := refilled_unique hedit haction
    have hforth := hcontroller.change hclosed hnew hrefilled.same
    have hback : Change site.controller disk₂' disk₁ :=
      hnew.change hforth.closed hcontroller fun i hi => (hrefilled.same i hi).symm
    by_cases heq : j = site.controller
    · obtain ⟨x', hlookup⟩ := hcontroller.lookup
      rw [heq] at hlocate
      exact ⟨_, _, x', hback.locate_file hlocate hlookup⟩
    · exact ⟨j, t', x, hback.locate hlocate heq⟩
  obtain ⟨j, t', hholds'⟩ := hroutes
  have hworded : Worded site [page] [page] disk₁ :=
    ⟨hclosed, hcontroller, holdsText_of_kept hkept h.routesText hholds'⟩
  obtain ⟨disk₂', hedit, hworded₂, hrefilled⟩ :=
    hworded.removeAction hsound (by simp) (by simp) rfl (by simp)
  obtain rfl := refilled_unique hedit haction
  obtain ⟨disk₃', hedit₃, hworded₃, hrefilled₃⟩ :=
    hworded₂.removeRoute hsound (by simp) (by simp) rfl (by simp)
  obtain rfl := refilled_unique hedit₃ hroute
  refine ⟨hworded, ?_, hrefilled, hrefilled₃⟩
  simpa using hworded₃

-- ============================================================================ commands

/-- A page that a project knows nothing of, unless it has a stylesheet. -/
structure Unmade (project : Project) (controller routes : Text) (disk : Disk) (page : Text) : Prop where
  notPermanent : page ∉ permanentPages
  noView : disk.holds (project.view page) = false
  noAction : (definition page).occursIn controller = false
  noRoute : (pageLine page).occursIn routes = false
  undeclared : ∀ l ∈ Text.lines routes, Text.trim l ≠ pageDeclaration page page

/-- Such a page with no link that leads nowhere in the place of its files or of the folders that
they are kept in. -/
structure Makeable (project : Project) (controller routes : Text) (disk : Disk) (page : Text) : Prop
    extends Unmade project controller routes disk page where
  noLink : ∀ part : Part, ∀ way ∈ Part.ways project part ++ [part.path project page],
    ¬ disk.Dangles way

/-- A disk on which a page was given its files, by the places of its view and of its
stylesheet. -/
structure Placed (project : Project) (page : Text) (hosts : List Key) (view sheet : Key)
    (disk disk' : Disk) : Prop where
  touched : Touched [view, sheet] hosts disk disk'
  stands : disk'.Stands (project.view page) view
  free : disk.lookup view = none
  apart : view ≠ sheet
  found : ∃ e, disk'.locate false (project.stylesheet page) = .ok (.entry sheet e)
  /-- The stylesheet was there, or nothing was in its place. -/
  origin : (∃ e, disk.locate false (project.stylesheet page) = .ok (.entry sheet e))
    ∨ disk.lookup sheet = none
      ∧ ∀ k e, disk.locate false (project.stylesheet page) ≠ .ok (.entry k e)

/-- The stylesheet had no other place before. -/
theorem Placed.eq_sheet {view sheet : Key} (h : Placed project page hosts view sheet disk disk')
    (hbefore : disk.locate false (project.stylesheet page) = .ok (.entry k e)) : k = sheet := by
  rcases h.origin with ⟨e', hfound⟩ | ⟨-, hnone⟩
  · rw [hbefore] at hfound
    cases hfound
    rfl
  · exact absurd hbefore (hnone k e)

/-- A disk with a page that was added. -/
structure Added (site : Site) (page : Text) (view sheet : Key) (disk disk' : Disk) : Prop
    extends Placed site.project page [site.controller, site.routes] view sheet disk disk' where
  before : Worded site [] [] disk
  worded : Worded site [page] [page] disk'

/-- What a path with a name at its end leads to stands at the place. -/
theorem lookup_of_locate {steps : List Text} {name : Text} (hpath : Path.segments path = steps ++ [name])
    (hname : Path.IsName name) (h : disk.locate false path = .ok (.entry k e)) :
    disk.lookup k = some e := by
  obtain ⟨-, -, left, there, -, hplace⟩ := (Disk.locate_name hpath hname).1 h
  cases hlookup : disk.lookup (there ++ [name]) with
  | none =>
      rw [Disk.place_of_none hlookup] at hplace
      cases hplace
  | some e' =>
      rw [Disk.place_of_some hlookup] at hplace
      cases hplace
      exact hlookup

/-- The two host files are patched at last. -/
theorem patched_ends {Expected : Except Failure Outcome → Disk → Prop} {first second : Edit Patch.Outcome}
    {applied unchanged applied' unchanged' last : Text} (hfail : ∀ failure d, Expected (.error failure) d)
    (h : ∀ outcome disk₁ outcome' disk₂, first.on disk = (.ok outcome, disk₁) →
      second.on disk₁ = (.ok outcome', disk₂) → Expected (.ok .completed) disk₂) :
    ((liftM first : Work Patch.Outcome) >>= fun outcome => reportPatch outcome applied unchanged >>= fun _ =>
      (liftM second : Work Patch.Outcome) >>= fun outcome => reportPatch outcome applied' unchanged' >>= fun _ =>
        Work.outro last >>= fun _ => pure .completed).Ends setting disk Expected := by
  refine .bind_edit_cases hfail fun outcome disk₁ hfirst => .bind_reportPatch ?_
  refine .bind_edit_cases hfail fun outcome' disk₂ hsecond => .bind_reportPatch ?_
  exact .bind_report (.pure (h outcome disk₁ outcome' disk₂ hfirst hsecond))

/-- Where nothing is, nothing was on a disk with fewer entries. -/
theorem none_of_kept (hkept : ∀ k e, disk.lookup k = some e → disk'.lookup k = some e)
    (h : disk'.lookup k = none) : disk.lookup k = none := by
  cases hlookup : disk.lookup k with
  | none => rfl
  | some e =>
      rw [hkept k e hlookup] at h
      cases h

/-- Entries stay when a file is placed where nothing was. -/
theorem kept_of_placed {names : List Text} {grown : Disk} (hgrown : Grown names disk grown)
    (hnone : grown.lookup j = none) (hchange : Change j grown disk') :
    ∀ k e, disk.lookup k = some e → disk'.lookup k = some e := by
  intro k e hk
  have hgrownk := hgrown.kept k e hk
  rw [hchange.same k]
  · exact hgrownk
  · rintro rfl
    rw [hnone] at hgrownk
    cases hgrownk

/-- No host file is where the view was placed. -/
theorem notMem_hosts {t t' : Text} (hcontroller : disk.HoldsText project.homeController here t)
    (hroutes : disk.HoldsText project.routes there t') (hfree : disk.lookup k = none) :
    k ∉ [here, there] := by
  obtain ⟨x, hfile⟩ := hcontroller.lookup
  obtain ⟨x', hfile'⟩ := hroutes.lookup
  intro hmem
  rcases List.mem_cons.1 hmem with rfl | hmem
  · rw [hfree] at hfile
    cases hfile
  · rw [← List.mem_singleton.1 hmem, hfree] at hfile'
    cases hfile'

/-- Another content of a host file changes nothing for the files of the page. -/
theorem Placed.refilled {t : Text} {view sheet : Key} (hnormal : Name.IsNormal page)
    (h : Placed project page hosts view sheet disk disk') (hclosed : disk'.Closed)
    (hholds : disk'.HoldsText path j t) (hhost : j ∈ hosts) (hview : view ∉ hosts)
    (hrefilled : Refilled j disk' disk'') : Placed project page hosts view sheet disk disk'' where
  touched := h.touched.trans (.of_refilled hrefilled hhost)
  stands := h.stands.congr (hholds.change_of_refilled hclosed hrefilled) (by rintro rfl; exact hview hhost)
  free := h.free
  apart := h.apart
  found := by
    have hchange := hholds.change_of_refilled hclosed hrefilled
    obtain ⟨e, hfound⟩ := h.found
    by_cases heq : sheet = j
    · -- the stylesheet is a host file
      obtain ⟨steps, hpath⟩ := Part.exists_segments hnormal project .stylesheet
      obtain ⟨x, hlookup⟩ := hholds.lookup
      obtain ⟨c', hlookup'⟩ := hrefilled.mode x _ hlookup
      have hfile := lookup_of_locate hpath (Part.isName_fileName page .stylesheet) hfound
      rw [heq] at hfile hfound ⊢
      rw [hlookup] at hfile
      cases hfile
      exact ⟨_, hchange.locate_file hfound hlookup'⟩
    · exact ⟨e, hchange.locate hfound heq⟩
  origin := h.origin

/-- A page with its files gets its action and its route. -/
theorem Placed.added {disk₁ disk₂ : Disk} {view sheet : Key} (hunused : Unused controller routes page)
    (hclosed : disk.Closed) (hcontroller : disk.HoldsText project.homeController here controller)
    (hroutes : disk.HoldsText project.routes there routes) (hrun : NoRun controller)
    (hclosed' : disk'.Closed) (hkept : ∀ k e, disk.lookup k = some e → disk'.lookup k = some e)
    (h : Placed project page [here, there] view sheet disk disk')
    (haction : (HostFile.insert project.homeController (.action page)).on disk' = (.ok outcome, disk₁))
    (hroute : (HostFile.insert project.routes (.route page page)).on disk₁ = (.ok outcome', disk₂)) :
    ∃ site : Site, site.project = project ∧ site.Sound (· = page) ∧ Added site page view sheet disk disk₂ := by
  have hview := notMem_hosts hcontroller hroutes h.free
  have hnormal := hunused.action.normal
  obtain ⟨x, hlocate⟩ := id hcontroller
  obtain ⟨x', hlocate'⟩ := id hroutes
  have hcontroller' : disk'.HoldsText project.homeController here controller :=
    ⟨x, locate_mono hkept hlocate⟩
  have hroutes' : disk'.HoldsText project.routes there routes := ⟨x', locate_mono hkept hlocate'⟩
  obtain ⟨site, rfl, rfl, rfl, hsound, rfl, rfl, hworded₁, hworded₂, hrefilled, hrefilled'⟩ :=
    exists_site_of_inserted hclosed' hcontroller' hroutes' hrun hunused haction hroute
  have hplaced := h.refilled hnormal hclosed' hcontroller' (by simp) hview hrefilled
  refine ⟨site, rfl, hsound, ?_, ⟨hclosed, hcontroller, hroutes⟩, hworded₂⟩
  exact hplaced.refilled hnormal hworded₁.closed hworded₁.routesText (by simp) hview hrefilled'

/-- A disk on which a file of a page was made where nothing was, with the folders above it. -/
structure Made (project : Project) (page : Text) (part : Part) (k : Key) (disk disk' : Disk) : Prop where
  closed : disk'.Closed
  kept : ∀ j e, disk.lookup j = some e → disk'.lookup j = some e
  free : disk.lookup k = none
  touched : ∀ {places hosts : List Key}, k ∈ places → k ∉ hosts → Touched places hosts disk disk'
  stands : disk'.Stands (part.path project page) k
  others : ∀ {path : Text} {j : Key}, disk.Stands path j → disk'.Stands path j
  vacant : ∀ other ≠ part, Vacant Part.folderNames disk (other.path project page) →
    Vacant Part.folderNames disk' (other.path project page)

/-- A file of a page is made, or nothing comes of it. -/
theorem exists_made (hclosed : disk.Closed) (hroutes : disk.locate true project.routes = .ok (.entry there e))
    (hnormal : Name.IsNormal page) (part : Part) (hvacant : Vacant Part.folderNames disk (part.path project page))
    (what content : Text) :
    (∃ failure disk', (Blueprint.placeNew (part.path project page) what content).on disk = (.error failure, disk'))
      ∨ ∃ disk' k, (Blueprint.placeNew (part.path project page) what content).on disk = (.ok (), disk')
        ∧ Made project page part k disk disk' := by
  rcases placeNew_on hclosed hroutes hnormal part hvacant what content with
    ⟨failure, disk', hedit, -⟩ | ⟨grown, disk', k, hedit, hgrown, hlast, hnone, hchange, hstands⟩
  · exact .inl ⟨failure, disk', hedit⟩
  · refine .inr ⟨disk', k, hedit, hchange.closed, kept_of_placed hgrown hnone hchange,
      none_of_kept hgrown.kept hnone, fun hplace hhost => ?_, hstands, fun hother => ?_, fun other hne hother => ?_⟩
    · exact (Touched.of_grown hgrown).trans (.of_agreeBut hchange.same hplace hhost)
    · refine (hother.grown hgrown).congr hchange ?_
      rintro rfl
      obtain ⟨x, c, hfile⟩ := (hother.grown hgrown).lookup
      rw [hnone] at hfile
      cases hfile
    · obtain ⟨steps, hpath⟩ := Part.exists_segments hnormal project other
      have hname : k.getLast? ≠ some (Part.fileName page other) := by
        rw [hlast]
        intro heq
        exact hne (Part.fileName_inj hnormal hnormal (Option.some_inj.1 heq)).2.symm
      have hthere : disk'.lookup k ≠ none := by
        obtain ⟨x, c, hfile⟩ := hstands.lookup
        rw [hfile]
        simp
      exact (hother.grown hgrown).congr hpath (Part.isName_fileName page other) hchange hgrown.closed
        (.inl hthere) (.inl hname)

namespace Made

variable {view sheet : Key} (h : Made project page .view view disk disk') (hview : view ∉ hosts)

include h hview

/-- The page has a stylesheet already, which is kept. -/
theorem placed_of_kept (hnormal : Name.IsNormal page)
    (hsheet : disk.locate false (project.stylesheet page) = .ok (.entry sheet e)) :
    Placed project page hosts view sheet disk disk' where
  touched := h.touched (by simp) hview
  stands := h.stands
  free := h.free
  apart := by
    obtain ⟨steps, hpath⟩ := Part.exists_segments hnormal project .stylesheet
    have hlookup := lookup_of_locate hpath (Part.isName_fileName page .stylesheet) hsheet
    rintro rfl
    rw [h.free] at hlookup
    cases hlookup
  found := ⟨e, locate_mono h.kept hsheet⟩
  origin := .inl ⟨e, hsheet⟩

/-- The page gets a stylesheet, too. -/
theorem placed_of_made (h' : Made project page .stylesheet sheet disk' disk'') (hsheet : sheet ∉ hosts)
    (hclosed : disk.Closed) (hvacant : Vacant Part.folderNames disk (project.stylesheet page)) :
    Placed project page hosts view sheet disk disk'' where
  touched := (h.touched (by simp) hview).trans (h'.touched (by simp) hsheet)
  stands := h'.others h.stands
  free := h.free
  apart := by
    obtain ⟨x, c, hfile⟩ := h.stands.lookup
    rintro rfl
    rw [h'.free] at hfile
    cases hfile
  found := by
    obtain ⟨x, c, hfound⟩ := h'.stands
    exact ⟨_, hfound⟩
  origin := .inr ⟨none_of_kept h.kept h'.free, hvacant disk (.refl hclosed)⟩

end Made

/-- If a page is added, it is there with all that belongs to it. -/
theorem add_ends_added (hclosed : disk.Closed)
    (hcontroller : disk.readText project.homeController = .ok controller)
    (hroutes : disk.readText project.routes = .ok routes) (hrun : NoRun controller)
    (hpage : Makeable project controller routes disk (Name.normalize raw)) :
    (add project.root raw).Ends setting disk fun answer disk' => answer = .ok .completed →
      ∃ site view sheet, site.project = project ∧ site.Sound (· = Name.normalize raw)
        ∧ Added site (Name.normalize raw) view sheet disk disk' := by
  obtain ⟨here, hcontroller⟩ := Disk.readText_eq_ok_iff.1 hcontroller
  obtain ⟨there, hroutes⟩ := Disk.readText_eq_ok_iff.1 hroutes
  have hnormal : Name.IsNormal (Name.normalize raw) := ⟨raw, rfl⟩
  generalize hname : Name.normalize raw = page at hpage hnormal ⊢
  obtain ⟨x, hlocate⟩ := id hroutes
  have hunused : Unused controller routes page :=
    ⟨⟨hnormal, hpage.noAction⟩, ⟨hnormal, hpage.noRoute⟩, hpage.undeclared⟩
  have hvacant : ∀ part : Part, disk.holds (part.path project page) = false →
      Vacant Part.folderNames disk (part.path project page) := fun part hholds =>
    Part.vacant hclosed hlocate hnormal
      (fun way hway => hpage.noLink part way (List.mem_append_left _ hway))
      (hpage.noLink part _ (by simp)) hholds
  unfold add
  simp only [hname]
  refine .bind_edit_cases (fun _ _ h => by cases h) fun opened disk₀ hopen => ?_
  obtain ⟨rfl, rfl, -⟩ := Project.on_open_eq_ok.1 hopen
  refine .bind_report ?_
  -- the view
  rcases exists_made hclosed hlocate hnormal .view (hvacant .view hpage.noView) "View" (Template.pageView page) with
    ⟨failure, disk₁, hedit⟩ | ⟨disk₁, view, hedit, hmade⟩
  · exact .bind_edit_error hedit fun h => by cases h
  refine .bind_edit hedit (.bind_report ?_)
  have hview := notMem_hosts hcontroller hroutes hmade.free
  -- the stylesheet
  refine .bind_edit (Edit.on_ask _) ?_
  cases hholds : disk₀.holds (opened.stylesheet page) with
  | true =>
      obtain ⟨k, e, hentry⟩ := Disk.holds_iff.1 hholds
      have hholds₁ : disk₁.holds (opened.stylesheet page) = true :=
        Disk.holds_iff.2 ⟨k, e, locate_mono hmade.kept hentry⟩
      obtain ⟨sheet, e', hsheet⟩ := Disk.unfollowed hentry
      rw [hholds₁]
      refine .bind_report (patched_ends (fun _ _ h => by cases h) ?_)
      intro outcome disk₃ outcome' disk₄ haction hroute _
      have hplaced := hmade.placed_of_kept hview hnormal hsheet
      obtain ⟨site, hproject, hsound, hadded⟩ := hplaced.added hunused hclosed hcontroller hroutes hrun
        hmade.closed hmade.kept haction hroute
      exact ⟨site, view, sheet, hproject, hsound, hadded⟩
  | false =>
      have hnothing := hvacant .stylesheet hholds
      have hvacant₁ : Vacant Part.folderNames disk₁ (opened.stylesheet page) :=
        hmade.vacant .stylesheet (by decide) hnothing
      rw [hvacant₁.holds hmade.closed]
      rcases exists_made hmade.closed (locate_mono hmade.kept hlocate) hnormal .stylesheet hvacant₁ "Stylesheet"
          (Template.pageStylesheet page) with
        ⟨failure, disk₂, hedit₂⟩ | ⟨disk₂, sheet, hedit₂, hmade₂⟩
      · exact .bind_edit_error hedit₂ fun h => by cases h
      refine .bind_edit hedit₂ (.bind_report (patched_ends (fun _ _ h => by cases h) ?_))
      intro outcome disk₃ outcome' disk₄ haction hroute _
      have hsheet := notMem_hosts hcontroller hroutes (none_of_kept hmade.kept hmade₂.free)
      have hplaced := hmade.placed_of_made hview hmade₂ hsheet hclosed hnothing
      obtain ⟨site, hproject, hsound, hadded⟩ := hplaced.added hunused hclosed hcontroller hroutes hrun
        hmade₂.closed (fun k e hk => hmade₂.kept k e (hmade.kept k e hk)) haction hroute
      exact ⟨site, view, sheet, hproject, hsound, hadded⟩

/-- What is discarded goes alone, be it a file or a link. -/
theorem discard_eq_ok {steps : List Text} {name : Text} {found : Bool} (hclosed : disk.Closed)
    (hpath : Path.segments path = steps ++ [name]) (hname : Path.IsName name)
    (hlocate : disk.locate false path = .ok (.entry k e))
    (h : (Blueprint.discard path).on disk = (.ok found, disk')) :
    disk'.Closed ∧ disk'.lookup k = none ∧ AgreeBut k disk disk' := by
  have hlookup := lookup_of_locate hpath hname hlocate
  have hne : k ≠ [] := by
    have hlast : k.getLast? = some name := Disk.getLast?_of_locate hpath hname hlocate
    rintro rfl
    cases hlast
  have hremove := Disk.removeFile_of_locate hpath hname hlocate
  have hremove : e ≠ .folder ∧ disk' = disk.erase k := by
    by_cases hfolder : e = .folder
    · rw [if_pos hfolder] at hremove
      rw [Blueprint.discard_on_fault (by decide) hremove] at h
      cases h
    · rw [if_neg hfolder] at hremove
      rw [Blueprint.discard_on_removed hremove] at h
      cases h
      exact ⟨hfolder, rfl⟩
  obtain ⟨hfolder, rfl⟩ := hremove
  refine ⟨hclosed.erase hne, ?_, ?_⟩
  · rw [Disk.lookup_erase hne, if_pos (List.prefix_refl k)]
  · intro i hi
    rw [Disk.lookup_erase hne]
    by_cases hbelow : k <+: i
    · rw [if_pos hbelow, hclosed.below (by rw [hlookup]; simpa using hfolder) hbelow hi]
    · rw [if_neg hbelow]

/-- Once the view and the stylesheet of an added page are gone and what refers to it is taken out,
its places are empty and the texts are the old ones. -/
theorem Added.removed {disk₁ disk₂ disk₃ disk₄ : Disk} {view sheet : Key} {outcome outcome' : Patch.Outcome}
    (hsound : site.Sound (· = page)) (h : Added site page view sheet disk disk')
    (hview : disk₁.lookup view = none) (hviewOnly : AgreeBut view disk' disk₁) (hclosed : disk₂.Closed)
    (hsheet : disk₂.lookup sheet = none) (hsheetOnly : AgreeBut sheet disk₁ disk₂)
    (haction : (HostFile.remove site.project.homeController (.action page)).on disk₂ = (.ok outcome, disk₃))
    (hroute : (HostFile.remove site.project.routes (.route page page)).on disk₃ = (.ok outcome', disk₄)) :
    Worded site [] [] disk₄ ∧ Touched [view, sheet] [site.controller, site.routes] disk disk₄
      ∧ disk₄.lookup view = none ∧ disk₄.lookup sheet = none := by
  have hview₂ : disk₂.lookup view = none := by rw [hsheetOnly view h.apart, hview]
  have hkept : ∀ k e, disk₂.lookup k = some e → disk'.lookup k = some e := by
    intro k e hk
    have hnot : k ≠ sheet ∧ k ≠ view := by
      refine ⟨?_, ?_⟩
      · rintro rfl
        rw [hsheet] at hk
        cases hk
      · rintro rfl
        rw [hview₂] at hk
        cases hk
    rwa [hsheetOnly k hnot.1, hviewOnly k hnot.2] at hk
  obtain ⟨hworded₂, hworded₄, hrefilled, hrefilled'⟩ := h.worded.of_removed hsound hclosed hkept haction hroute
  have hviewHost := notMem_hosts hworded₂.controllerText hworded₂.routesText hview₂
  have hsheetHost := notMem_hosts hworded₂.controllerText hworded₂.routesText hsheet
  have hlast : ∀ k, k ∉ [site.controller, site.routes] → disk₄.lookup k = disk₂.lookup k := by
    intro k hk
    simp only [List.mem_cons, List.not_mem_nil, or_false, not_or] at hk
    rw [hrefilled'.same k hk.2, hrefilled.same k hk.1]
  refine ⟨hworded₄, ?_, ?_, ?_⟩
  · exact (((h.touched.trans (.of_agreeBut hviewOnly (by simp) hviewHost)).trans
      (.of_agreeBut hsheetOnly (by simp) hsheetHost)).trans (.of_refilled hrefilled (by simp))).trans
        (.of_refilled hrefilled' (by simp))
  · rw [hlast view hviewHost, hview₂]
  · rw [hlast sheet hsheetHost, hsheet]

/-- If a page that was added is removed, its places are empty and the texts are the old ones. -/
theorem remove_ends_removed {view sheet : Key} (hsound : site.Sound (· = Name.normalize raw))
    (hpermanent : Name.normalize raw ∉ permanentPages)
    (h : Added site (Name.normalize raw) view sheet disk disk') :
    (remove site.project.root raw true).Ends setting disk' fun answer disk'' => answer = .ok .completed →
      Worded site [] [] disk'' ∧ Touched [view, sheet] [site.controller, site.routes] disk disk''
        ∧ disk''.lookup view = none ∧ disk''.lookup sheet = none := by
  have hnormal : Name.IsNormal (Name.normalize raw) := ⟨raw, rfl⟩
  generalize hname : Name.normalize raw = page at hsound hpermanent h hnormal
  unfold remove
  simp only [hname]
  refine .bind_edit_cases (fun _ _ h => by cases h) fun opened disk₀ hopen => ?_
  obtain ⟨rfl, rfl, -⟩ := Project.on_open_eq_ok.1 hopen
  refine .bind_report ?_
  rw [if_neg hpermanent]
  refine .bind_edit (Edit.on_ask _) ?_
  rw [h.stands.holds]
  refine .bind (.confirmed ?_)
  obtain ⟨viewSteps, hviewPath⟩ := Part.exists_segments hnormal site.project .view
  obtain ⟨steps, hpath⟩ := Part.exists_segments hnormal site.project .stylesheet
  obtain ⟨disk₁, hedit, hview, hchange, -⟩ := Blueprint.discard_on h.worded.closed hviewPath
    (Part.isName_fileName page .view) (Part.fileName_notMem page .view) h.stands
  refine .bind_edit hedit (.bind_report ?_)
  obtain ⟨e, hfound⟩ := h.found
  have hfound₁ := hchange.locate hfound (Ne.symm h.apart)
  refine .bind_edit_cases (fun _ _ h => by cases h) fun discarded disk₂ hdiscard => ?_
  obtain ⟨hclosed₂, hsheet, hsame⟩ :=
    discard_eq_ok hchange.closed hpath (Part.isName_fileName page .stylesheet) hfound₁ hdiscard
  cases discarded with
  | true =>
      refine .bind_report (patched_ends (fun _ _ h => by cases h) fun _ _ _ _ haction hroute _ => ?_)
      exact h.removed hsound hview hchange.same hclosed₂ hsheet hsame haction hroute
  | false =>
      refine patched_ends (fun _ _ h => by cases h) fun _ _ _ _ haction hroute _ => ?_
      exact h.removed hsound hview hchange.same hclosed₂ hsheet hsame haction hroute

/-- Adding a page and removing it gives back the project: if both go through, every file and
every link is as it was, and there is no other, except that the page has no stylesheet any more
if it had one. -/
theorem remove_undoes_add {setting' : Setting} {answers answers' : Option (List Answer)}
    (hclosed : disk.Closed) (hcontroller : disk.readText project.homeController = .ok controller)
    (hroutes : disk.readText project.routes = .ok routes) (hrun : NoRun controller)
    (hpage : Makeable project controller routes disk (Name.normalize raw))
    (hadd : Request.perform setting answers project (.add raw) disk = (.ok .completed, disk'))
    (hremove : Request.perform setting' answers' project (.remove raw) disk' = (.ok .completed, disk'')) :
    ∀ k e, e ≠ .folder → (disk''.lookup k = some e ↔ disk.lookup k = some e
      ∧ ∀ e', disk.locate false (project.stylesheet (Name.normalize raw)) ≠ .ok (.entry k e')) := by
  obtain ⟨site, view, sheet, rfl, hsound, hadded⟩ : ∃ site view sheet, site.project = project
      ∧ site.Sound (· = Name.normalize raw) ∧ Added site (Name.normalize raw) view sheet disk disk' := by
    have hends := add_ends_added hclosed hcontroller hroutes hrun hpage (Session.start disk answers) rfl
      (congrArg Prod.fst hadd)
    rwa [show ((add project.root raw).on setting (Session.start disk answers)).2.disk = disk' from
      congrArg Prod.snd hadd] at hends
  obtain ⟨hworded, htouched, hview, hsheet⟩ : Worded site [] [] disk''
      ∧ Touched [view, sheet] [site.controller, site.routes] disk disk''
      ∧ disk''.lookup view = none ∧ disk''.lookup sheet = none := by
    have hends := remove_ends_removed hsound hpage.notPermanent hadded (Session.start disk' answers') rfl
      (congrArg Prod.fst hremove)
    rwa [show ((remove site.project.root raw true).on setting' (Session.start disk' answers')).2.disk
      = disk'' from congrArg Prod.snd hremove] at hends
  intro k e hfile
  by_cases hsheetPlace : k = sheet
  · -- nothing is left where the stylesheet was, and what was there is excepted
    subst hsheetPlace
    rw [hsheet]
    refine ⟨fun h => (by cases h), ?_⟩
    rintro ⟨hbefore, hexcept⟩
    rcases hadded.origin with ⟨e', hfound⟩ | ⟨hnone, -⟩
    · exact absurd hfound (hexcept e')
    · rw [hnone] at hbefore
      cases hbefore
  · have hexcept : ∀ e', disk.locate false (site.project.stylesheet (Name.normalize raw)) ≠ .ok (.entry k e') :=
      fun e' hbefore => hsheetPlace (hadded.eq_sheet hbefore)
    rw [and_iff_left hexcept]
    by_cases hviewPlace : k = view
    · rw [hviewPlace, hview, hadded.free]
    by_cases hhere : k = site.controller
    · rw [hhere, htouched.lookup_host (by simp) hadded.before.controllerText hworded.controllerText]
    by_cases hthere : k = site.routes
    · rw [hthere, htouched.lookup_host (by simp) hadded.before.routesText hworded.routesText]
    exact htouched.same k e hfile (by simp [hviewPlace, hsheetPlace]) (by simp [hhere, hthere])

-- ================================================================== a small project

/-- The small project with a stylesheet for a page that it does not have. -/
def styledDisk : Disk :=
  ((smallDisk.insert ["app".toList, "assets".toList] .folder)
    |>.insert ["app".toList, "assets".toList, "stylesheets".toList] .folder)
    |>.insert ["app".toList, "assets".toList, "stylesheets".toList, "a.css".toList]
      (.file false (.text "x"))

/-- The disk after a page of the small project was added. -/
def addedDisk (disk : Disk) : Disk :=
  (Request.perform idleSetting none ⟨"/"⟩ (.add "a") disk).2

/-- The disk after that page was removed again. -/
def removedDisk (disk : Disk) : Disk :=
  (Request.perform idleSetting none ⟨"/"⟩ (.remove "a") (addedDisk disk)).2

theorem unmade_small (hview : disk.holds (Project.view ⟨"/"⟩ "a") = false) :
    Unmade ⟨"/"⟩ smallController smallRoutes disk "a" where
  notPermanent := by decide
  noView := hview
  noAction := by decide +kernel
  noRoute := by decide +kernel
  undeclared := by decide

theorem completed_of_toOption {answer : Except Failure Outcome}
    (h : answer.toOption = some .completed) : answer = .ok .completed := by
  cases answer with
  | error failure => cases h
  | ok outcome =>
      cases h
      rfl

/-- A page with a stylesheet from before, added and removed: the controller is as it was. -/
theorem remove_undoes_add_styled :
    (removedDisk styledDisk).lookup ["app".toList, "controllers".toList, "home_controller.rb".toList]
      = some (.file false (.text smallController)) := by
  have hname : Name.normalize "a" = "a".toList := by decide +kernel
  have hpage : Makeable ⟨"/"⟩ smallController smallRoutes styledDisk (Name.normalize "a") := by
    rw [hname]
    exact ⟨unmade_small (by decide +kernel), by
      intro part
      cases part <;> exact fun _ _ => Disk.not_dangles (by decide +kernel)⟩
  have hadd : Request.perform idleSetting none ⟨"/"⟩ (.add "a") styledDisk
      = (.ok .completed, addedDisk styledDisk) :=
    Prod.ext (completed_of_toOption (by decide +kernel)) (by rw [addedDisk])
  have hremove : Request.perform idleSetting none ⟨"/"⟩ (.remove "a") (addedDisk styledDisk)
      = (.ok .completed, removedDisk styledDisk) :=
    Prod.ext (completed_of_toOption (by decide +kernel)) (by rw [removedDisk])
  have hback := remove_undoes_add (Disk.closed_of_forall_mem (by decide +kernel)) rfl rfl
    (Text.noRun_of_count (by decide)) hpage hadd hremove
  refine (hback _ _ (by simp)).2 ⟨by decide +kernel, ?_⟩
  intro e' hlocate
  have hplace : ((styledDisk.locate false (Project.stylesheet ⟨"/"⟩ (Name.normalize "a"))).toOption.map
      Disk.Located.key) = some ["app".toList, "controllers".toList, "home_controller.rb".toList] := by
    rw [hlocate]
    rfl
  revert hplace
  decide +kernel

/-- Removing a page that was added does not give back a stylesheet that it had before. And if a
link that leads nowhere is in the place of the view, the view is written where the link leads,
and it is the link that goes. -/
theorem remove_takes_stylesheet :
    (Start ⟨"/"⟩ smallController smallRoutes styledDisk
      ∧ Unmade ⟨"/"⟩ smallController smallRoutes styledDisk "a"
      ∧ (Request.perform idleSetting none ⟨"/"⟩ (.add "a") styledDisk).1.toOption = some .completed
      ∧ (Request.perform idleSetting none ⟨"/"⟩ (.remove "a") (addedDisk styledDisk)).1.toOption
        = some .completed
      ∧ styledDisk.lookup ["app".toList, "assets".toList, "stylesheets".toList, "a.css".toList]
        = some (.file false (.text "x"))
      ∧ (removedDisk styledDisk).lookup
        ["app".toList, "assets".toList, "stylesheets".toList, "a.css".toList] = none)
    ∧ Start ⟨"/"⟩ smallController smallRoutes linkedDisk
      ∧ Unmade ⟨"/"⟩ smallController smallRoutes linkedDisk "a"
      ∧ (Request.perform idleSetting none ⟨"/"⟩ (.add "a") linkedDisk).1.toOption = some .completed
      ∧ (Request.perform idleSetting none ⟨"/"⟩ (.remove "a") (addedDisk linkedDisk)).1.toOption
        = some .completed
      ∧ linkedDisk.lookup ["app".toList, "views".toList, "home".toList, "b.html.erb".toList] = none
      ∧ ((removedDisk linkedDisk).lookup
        ["app".toList, "views".toList, "home".toList, "b.html.erb".toList]).isSome
      ∧ (removedDisk linkedDisk).lookup
        ["app".toList, "views".toList, "home".toList, "a.html.erb".toList] = none := by
  refine ⟨⟨start_small (by decide +kernel) (by decide +kernel) rfl rfl, unmade_small (by decide +kernel), ?_⟩,
    start_small (by decide +kernel) (by decide +kernel) rfl rfl, unmade_small (by decide +kernel), ?_⟩
  · decide +kernel
  · decide +kernel

end SiteScaffold.Command.Page

/-
Pages on disk. A page has a view and a stylesheet, an action in the home controller and a
route in the file of routes; `Kept` says which of them are there, of pages of some kind,
and that nothing else could be taken for one of them. Each edit that a command makes keeps
the others as they are:

- a file is placed or discarded (`Kept.placeNew`, `Kept.discard`);
- an action or a route is put in or taken out (`Kept.insertAction` and so on).

The controller and the file of routes may be one file, if a link leads from one path to
the other; a `Site` knows both ways.
-/
import SiteScaffold.Proofs.Project
import SiteScaffold.Proofs.Blueprint
import SiteScaffold.Proofs.Patch.HostFile
import SiteScaffold.Proofs.Patch.Pages

namespace SiteScaffold.Command.Page

open Disk (Change Grown Refilled Stands Vacant)
open Patch
open Patch.Pages (Texts)
open Project (Part)

-- ============================================================================= files

/-- The file of a page is placed where nothing can be, with the folders above it, unless the
system reports a fault. -/
theorem placeNew_on {project : Project} {page : Text} {disk : Disk} {there : Key} {e : Entry}
    (hclosed : disk.Closed) (hroutes : disk.locate true project.routes = .ok (.entry there e))
    (hnormal : Name.IsNormal page) (part : Part)
    (hvacant : Vacant Part.folderNames disk (part.path project page)) (what content : Text) :
    (∃ failure disk', (Blueprint.placeNew (part.path project page) what content).on disk
        = (.error failure, disk') ∧ failure.OfSystem)
      ∨ ∃ grown disk' k, (Blueprint.placeNew (part.path project page) what content).on disk
          = (.ok (), disk')
        ∧ Grown Part.folderNames disk grown ∧ k.getLast? = some (Part.fileName page part)
        ∧ grown.lookup k = none ∧ Change k grown disk' ∧ disk'.Stands (part.path project page) k := by
  obtain ⟨steps, hpath⟩ := Part.exists_segments hnormal project part
  rw [Blueprint.placeNew_on (hvacant.holds hclosed)]
  rcases Blueprint.place_on content hpath (Part.isName_fileName page part)
      (Part.parent?_path hnormal project part) (Part.grown_makeFolders hclosed hroutes part) hvacant with
    hfailure | ⟨grown, disk', hedit, hgrown, k, hlast, hnone, hchange, hstands⟩
  · exact .inl hfailure
  · exact .inr ⟨grown, disk', k, hedit, hgrown, hlast, hnone, hchange, hstands⟩

-- ============================================================================= sites

/-- Where a project keeps its pages: the places of the controller, of the file of routes
and of the manifest, and the texts of the first two. -/
structure Site where
  project : Project
  texts : Texts
  controller : Key
  routes : Key
  manifest : Key

/-- Whether pages of some kind can be put into the texts of a site, which agree if they
are the text of one file and do not depend on each other if they are not. -/
structure Site.Sound (site : Site) (Fits : Text → Prop) : Prop where
  takes : site.texts.Takes Fits
  normal : ∀ page, Fits page → Name.IsNormal page
  shared : site.controller = site.routes → ∀ actions routes,
    site.texts.controller actions routes = site.texts.routes actions routes
  controller : site.controller ≠ site.routes → ∀ actions routes routes',
    site.texts.controller actions routes = site.texts.controller actions routes'
  routes : site.controller ≠ site.routes → ∀ actions actions' routes,
    site.texts.routes actions routes = site.texts.routes actions' routes

/-- Whether a disk has the texts of a site, by the pages whose actions and by those whose
routes were put in. -/
structure Worded (site : Site) (actions routes : List Text) (disk : Disk) : Prop where
  closed : disk.Closed
  controllerText : disk.HoldsText site.project.homeController site.controller
    (site.texts.controller actions routes)
  routesText : disk.HoldsText site.project.routes site.routes (site.texts.routes actions routes)

namespace Worded

variable {site : Site} {Fits : Text → Prop} {actions actions' routes routes' : List Text}
  {disk disk' : Disk} {page : Text}

/-- The controller gets another text, which is that of the file of routes too if the two
are one file. -/
theorem controller_written (hsound : site.Sound Fits) (h : Worded site actions routes disk)
    (hnew : disk'.HoldsText site.project.homeController site.controller
      (site.texts.controller actions' routes))
    (hsame : Disk.AgreeBut site.controller disk disk') : Worded site actions' routes disk' := by
  have hchange := h.controllerText.change h.closed hnew hsame
  refine ⟨hchange.closed, hnew, ?_⟩
  by_cases heq : site.controller = site.routes
  · have hroutes := h.routesText
    rw [← hsound.shared heq]
    rw [← heq] at hroutes ⊢
    exact hroutes.at hchange hnew
  · rw [hsound.routes heq actions' actions]
    exact h.routesText.congr hchange (Ne.symm heq)

theorem routes_written (hsound : site.Sound Fits) (h : Worded site actions routes disk)
    (hnew : disk'.HoldsText site.project.routes site.routes (site.texts.routes actions routes'))
    (hsame : Disk.AgreeBut site.routes disk disk') : Worded site actions routes' disk' := by
  have hchange := h.routesText.change h.closed hnew hsame
  refine ⟨hchange.closed, ?_, hnew⟩
  by_cases heq : site.controller = site.routes
  · have hcontroller := h.controllerText
    rw [hsound.shared heq]
    rw [heq] at hcontroller ⊢
    exact hcontroller.at hchange hnew
  · rw [hsound.controller heq actions routes' routes]
    exact h.controllerText.congr hchange heq

theorem insertAction (hsound : site.Sound Fits) (h : Worded site actions routes disk)
    (hactions : ∀ p ∈ actions, Fits p) (hroutes : ∀ p ∈ routes, Fits p) (hfits : Fits page)
    (hmem : page ∉ actions) :
    ∃ disk', (HostFile.insert site.project.homeController (.action page)).on disk
        = (.ok .applied, disk')
      ∧ Worded site (actions ++ [page]) routes disk' ∧ Refilled site.controller disk disk' := by
  have hinsert := hsound.takes.insertAction hactions hroutes hfits
  rw [if_neg hmem] at hinsert
  obtain ⟨disk', hedit, hnew, hrefilled⟩ :=
    Patch.HostFile.insert_on (.action page) h.controllerText hinsert
  exact ⟨disk', hedit, h.controller_written hsound hnew hrefilled.same, hrefilled⟩

theorem removeAction (hsound : site.Sound Fits) (h : Worded site actions routes disk)
    (hactions : ∀ p ∈ actions, Fits p) (hroutes : ∀ p ∈ routes, Fits p) (hfits : Fits page)
    (hmem : page ∈ actions) :
    ∃ disk', (HostFile.remove site.project.homeController (.action page)).on disk
        = (.ok .applied, disk')
      ∧ Worded site (actions.filter (· ≠ page)) routes disk' ∧ Refilled site.controller disk disk' := by
  have hremove := hsound.takes.removeAction hactions hroutes hfits
  rw [if_pos hmem] at hremove
  obtain ⟨disk', hedit, hnew, hrefilled⟩ := Patch.HostFile.remove_on (.action page) h.controllerText
  simp only [Patch.Fragment.remove, hremove] at hedit hnew
  exact ⟨disk', hedit, h.controller_written hsound hnew hrefilled.same, hrefilled⟩

theorem insertRoute (hsound : site.Sound Fits) (h : Worded site actions routes disk)
    (hactions : ∀ p ∈ actions, Fits p) (hroutes : ∀ p ∈ routes, Fits p) (hfits : Fits page)
    (hmem : page ∉ routes) :
    ∃ disk', (HostFile.insert site.project.routes (.route page page)).on disk
        = (.ok .applied, disk')
      ∧ Worded site actions (routes ++ [page]) disk' ∧ Refilled site.routes disk disk' := by
  have hinsert := hsound.takes.insertRoute hactions hroutes hfits
  rw [if_neg hmem] at hinsert
  obtain ⟨disk', hedit, hnew, hrefilled⟩ :=
    Patch.HostFile.insert_on (.route page page) h.routesText hinsert
  exact ⟨disk', hedit, h.routes_written hsound hnew hrefilled.same, hrefilled⟩

theorem removeRoute (hsound : site.Sound Fits) (h : Worded site actions routes disk)
    (hactions : ∀ p ∈ actions, Fits p) (hroutes : ∀ p ∈ routes, Fits p) (hfits : Fits page)
    (hmem : page ∈ routes) :
    ∃ disk', (HostFile.remove site.project.routes (.route page page)).on disk
        = (.ok .applied, disk')
      ∧ Worded site actions (routes.filter (· ≠ page)) disk' ∧ Refilled site.routes disk disk' := by
  have hremove := hsound.takes.removeRoute hactions hroutes hfits
  rw [if_pos hmem] at hremove
  obtain ⟨disk', hedit, hnew, hrefilled⟩ := Patch.HostFile.remove_on (.route page page) h.routesText
  simp only [Patch.Fragment.remove, hremove] at hedit hnew
  exact ⟨disk', hedit, h.routes_written hsound hnew hrefilled.same, hrefilled⟩

end Worded

/-- What a disk keeps of pages: the files that are there, and the pages whose actions and
whose routes are. -/
structure Kept (site : Site) (Fits : Text → Prop) (there : Text → Part → Prop)
    (actions routes : List Text) (disk : Disk) : Prop where
  closed : disk.Closed
  controllerText : disk.HoldsText site.project.homeController site.controller
    (site.texts.controller actions routes)
  routesText : disk.HoldsText site.project.routes site.routes (site.texts.routes actions routes)
  manifest : ∃ x c, disk.locate true (site.project.path Project.manifestName)
    = .ok (.entry site.manifest (.file x c))
  actionsFit : ∀ page ∈ actions, Fits page
  routesFit : ∀ page ∈ routes, Fits page
  stands : ∀ page part, Fits page → there page part → ∃ k,
    disk.Stands (part.path site.project page) k
      ∧ k ≠ site.controller ∧ k ≠ site.routes ∧ k ≠ site.manifest
  vacant : ∀ page part, Fits page → ¬ there page part →
    Vacant Part.folderNames disk (part.path site.project page)

namespace Kept

variable {site : Site} {Fits : Text → Prop} {there there' : Text → Part → Prop}
  {actions actions' routes routes' : List Text} {disk disk' : Disk} {page : Text} {part : Part}
  {k : Key}

theorem of_iff (h : Kept site Fits there actions routes disk)
    (hiff : ∀ page part, there' page part ↔ there page part) :
    Kept site Fits there' actions routes disk := by
  refine { h with
    stands := fun page part hfits hthere => h.stands page part hfits ((hiff page part).1 hthere)
    vacant := fun page part hfits hthere => h.vacant page part hfits fun hold => ?_ }
  exact hthere ((hiff page part).2 hold)

theorem lookup_manifest (h : Kept site Fits there actions routes disk) :
    ∃ x c, disk.lookup site.manifest = some (.file x c) := by
  obtain ⟨x, c, hlocate⟩ := h.manifest
  exact ⟨x, c, (Disk.locate_eq_ok_iff.1 hlocate).2.lookup⟩

/-- The project opens. -/
theorem isFile (h : Kept site Fits there actions routes disk) :
    (disk.isFile site.project.routes && disk.isFile (site.project.path Project.manifestName))
      = true := by
  obtain ⟨x, hroutes⟩ := h.routesText
  obtain ⟨x', c, hmanifest⟩ := h.manifest
  rw [Bool.and_eq_true]
  exact ⟨Disk.isFile_iff.2 ⟨_, _, _, hroutes⟩, Disk.isFile_iff.2 ⟨_, _, _, hmanifest⟩⟩

/-- A page's file is there or not as it says. -/
theorem holds (h : Kept site Fits there actions routes disk) (hfits : Fits page) (part : Part)
    (hthere : there page part) : disk.holds (part.path site.project page) = true := by
  obtain ⟨k, hstands, -⟩ := h.stands page part hfits hthere
  exact hstands.holds

theorem holds_eq_false (h : Kept site Fits there actions routes disk) (hfits : Fits page)
    (part : Part) (hthere : ¬ there page part) : disk.holds (part.path site.project page) = false :=
  (h.vacant page part hfits hthere).holds h.closed

-- ===================================================================== files of pages

/-- Making folders for files changes nothing. -/
theorem grown (h : Kept site Fits there actions routes disk)
    (hgrown : Grown Part.folderNames disk disk') : Kept site Fits there actions routes disk' where
  closed := hgrown.closed
  controllerText := h.controllerText.grown hgrown
  routesText := h.routesText.grown hgrown
  manifest := by
    obtain ⟨x, c, hlocate⟩ := h.manifest
    exact ⟨x, c, Disk.locate_grown hgrown hlocate⟩
  actionsFit := h.actionsFit
  routesFit := h.routesFit
  stands := by
    intro page part hfits hthere
    obtain ⟨k, hstands, hne⟩ := h.stands page part hfits hthere
    exact ⟨k, hstands.grown hgrown, hne⟩
  vacant := fun page part hfits hthere => (h.vacant page part hfits hthere).grown hgrown

/-- A change somewhere else keeps the file where it stands. -/
theorem stands_congr (h : Kept site Fits there actions routes disk) (hchange : Change k disk disk')
    (hfits : Fits page) (hthere : there page part)
    (hne : ∀ k', disk.Stands (part.path site.project page) k' → k' ≠ k) :
    ∃ k, disk'.Stands (part.path site.project page) k
      ∧ k ≠ site.controller ∧ k ≠ site.routes ∧ k ≠ site.manifest := by
  obtain ⟨k', hstands, hplaces⟩ := h.stands page part hfits hthere
  exact ⟨k', hstands.congr hchange (hne k' hstands), hplaces⟩

/-- A file comes or goes at a place of its own, and all the rest stays as it is. -/
theorem change (hsound : site.Sound Fits) (h : Kept site Fits there actions routes disk)
    (hchange : Change k disk disk') (hfits : Fits page)
    (hlast : k.getLast? = some (Part.fileName page part))
    (hplaces : k ≠ site.controller ∧ k ≠ site.routes ∧ k ≠ site.manifest)
    (hother : ∀ page' part', ¬ (page' = page ∧ part' = part) →
      (there' page' part' ↔ there page' part'))
    (hthere : there' page part → disk'.Stands (part.path site.project page) k)
    (hnot : ¬ there' page part → Vacant Part.folderNames disk' (part.path site.project page)) :
    Kept site Fits there' actions routes disk' := by
  obtain ⟨hcontroller, hroutes, hmanifest⟩ := hplaces
  have hname : ∀ {page' part'}, Fits page' → ¬ (page' = page ∧ part' = part) →
      k.getLast? ≠ some (Part.fileName page' part') := by
    intro page' part' hfits' hne heq
    rw [hlast] at heq
    obtain ⟨rfl, rfl⟩ := Part.fileName_inj (hsound.normal _ hfits) (hsound.normal _ hfits')
      (Option.some_inj.1 heq)
    exact hne ⟨rfl, rfl⟩
  refine {
    closed := hchange.closed
    controllerText := h.controllerText.congr hchange (Ne.symm hcontroller)
    routesText := h.routesText.congr hchange (Ne.symm hroutes)
    manifest := ?_
    actionsFit := h.actionsFit
    routesFit := h.routesFit
    stands := ?_
    vacant := ?_ }
  · obtain ⟨x, c, hlocate⟩ := h.manifest
    exact ⟨x, c, hchange.locate hlocate (Ne.symm hmanifest)⟩
  · intro page' part' hfits' hthere'
    by_cases hsame : page' = page ∧ part' = part
    · obtain ⟨rfl, rfl⟩ := hsame
      exact ⟨k, hthere hthere', hcontroller, hroutes, hmanifest⟩
    · rw [hother _ _ hsame] at hthere'
      refine h.stands_congr hchange hfits' hthere' fun k' hstands => ?_
      rintro rfl
      obtain ⟨steps, hpath⟩ := Part.exists_segments (hsound.normal _ hfits') site.project part'
      exact hname hfits' hsame (hstands.getLast? hpath (Part.isName_fileName page' part'))
  · intro page' part' hfits' hthere'
    by_cases hsame : page' = page ∧ part' = part
    · obtain ⟨rfl, rfl⟩ := hsame
      exact hnot hthere'
    · rw [hother _ _ hsame] at hthere'
      obtain ⟨steps, hpath⟩ := Part.exists_segments (hsound.normal _ hfits') site.project part'
      refine (h.vacant page' part' hfits' hthere').congr hpath (Part.isName_fileName page' part')
        hchange h.closed (.inr ?_) (.inl (hname hfits' hsame))
      intro name hmem heq
      rw [hlast] at heq
      cases heq
      exact Part.fileName_notMem page part hmem

/-- The file of a page is placed where there is none, unless the system reports a fault. -/
theorem placeNew (hsound : site.Sound Fits) (h : Kept site Fits there actions routes disk)
    (hfits : Fits page) (part : Part) (hthere : ¬ there page part) (what content : Text) :
    (∃ failure disk', (Blueprint.placeNew (part.path site.project page) what content).on disk
        = (.error failure, disk') ∧ failure.OfSystem)
      ∨ ∃ disk', (Blueprint.placeNew (part.path site.project page) what content).on disk
          = (.ok (), disk')
        ∧ Kept site Fits (fun p r => p = page ∧ r = part ∨ there p r) actions routes disk' := by
  obtain ⟨x, hroutes⟩ := h.routesText
  rcases placeNew_on h.closed hroutes (hsound.normal _ hfits) part (h.vacant page part hfits hthere)
      what content with
    hfailure | ⟨grown, disk', k, hedit, hgrown, hlast, hnone, hchange, hstands⟩
  · exact .inl hfailure
  · have hbefore := h.grown hgrown
    refine .inr ⟨disk', hedit, hbefore.change hsound hchange hfits hlast ?_ (fun p r hne => ?_)
      (fun _ => hstands) fun hnot => absurd (.inl ⟨rfl, rfl⟩) hnot⟩
    · -- the place was free, and the places of the other files were not
      have hfree : ∀ {k' x c}, grown.lookup k' = some (.file x c) → k ≠ k' := by
        rintro k' x c hfile rfl
        rw [hnone] at hfile
        cases hfile
      obtain ⟨x, hcontroller⟩ := hbefore.controllerText.lookup
      obtain ⟨x', hroutes⟩ := hbefore.routesText.lookup
      obtain ⟨x'', c, hmanifest⟩ := hbefore.lookup_manifest
      exact ⟨hfree hcontroller, hfree hroutes, hfree hmanifest⟩
    · rw [or_iff_right hne]

/-- The file of a page is discarded. -/
theorem discard (hsound : site.Sound Fits) (h : Kept site Fits there actions routes disk)
    (hfits : Fits page) (part : Part) (hthere : there page part) :
    ∃ disk', (Blueprint.discard (part.path site.project page)).on disk = (.ok true, disk')
      ∧ Kept site Fits (fun p r => ¬ (p = page ∧ r = part) ∧ there p r) actions routes disk' := by
  obtain ⟨k, hstands, hplaces⟩ := h.stands page part hfits hthere
  obtain ⟨steps, hpath⟩ := Part.exists_segments (hsound.normal _ hfits) site.project part
  have hname := Part.isName_fileName page part
  obtain ⟨disk', hedit, -, hchange, hvacant⟩ := Blueprint.discard_on h.closed hpath hname
    (Part.fileName_notMem page part) hstands
  refine ⟨disk', hedit, h.change hsound hchange hfits (hstands.getLast? hpath hname) hplaces
    (fun p r hne => ?_) (fun hnot => absurd ⟨rfl, rfl⟩ hnot.1) fun _ => hvacant⟩
  rw [and_iff_right hne]

-- ================================================================ actions and routes

/-- Another text in the controller or the file of routes changes nothing else. -/
theorem rewritten (hsound : site.Sound Fits) (h : Kept site Fits there actions routes disk)
    {path t t' : Text} (hplace : k = site.controller ∨ k = site.routes)
    (hbefore : disk.HoldsText path k t) (hafter : disk'.HoldsText path k t')
    (hsame : Disk.AgreeBut k disk disk') (hactions : ∀ page ∈ actions', Fits page)
    (hroutes : ∀ page ∈ routes', Fits page)
    (hcontrollerText : disk'.HoldsText site.project.homeController site.controller
      (site.texts.controller actions' routes'))
    (hroutesText : disk'.HoldsText site.project.routes site.routes
      (site.texts.routes actions' routes')) :
    Kept site Fits there actions' routes' disk' := by
  have hchange := hbefore.change h.closed hafter hsame
  obtain ⟨x, hlookup⟩ := hbefore.lookup
  obtain ⟨x', hlookup'⟩ := hafter.lookup
  refine ⟨hchange.closed, hcontrollerText, hroutesText, ?_, hactions, hroutes, ?_, ?_⟩
  · obtain ⟨x, c, hlocate⟩ := h.manifest
    by_cases heq : site.manifest = k
    · rw [heq] at hlocate ⊢
      exact ⟨_, _, hchange.locate_file hlocate hlookup'⟩
    · exact ⟨x, c, hchange.locate hlocate heq⟩
  · intro page part hfits hthere
    obtain ⟨k', hstands, hcontroller, hroutes, hmanifest⟩ := h.stands page part hfits hthere
    have hne : k' ≠ k := by
      rcases hplace with rfl | rfl
      · exact hcontroller
      · exact hroutes
    exact ⟨k', hstands.congr hchange hne, hcontroller, hroutes, hmanifest⟩
  · intro page part hfits hthere
    obtain ⟨steps, hpath⟩ := Part.exists_segments (hsound.normal _ hfits) site.project part
    refine (h.vacant page part hfits hthere).congr hpath (Part.isName_fileName page part) hchange
      h.closed (.inl ?_) (.inr (.inl ?_))
    · rw [hlookup']
      simp
    · rw [hlookup]
      simp

/-- The texts on the disk. -/
theorem worded (h : Kept site Fits there actions routes disk) : Worded site actions routes disk :=
  ⟨h.closed, h.controllerText, h.routesText⟩

theorem insertAction (hsound : site.Sound Fits) (h : Kept site Fits there actions routes disk)
    (hfits : Fits page) (hmem : page ∉ actions) :
    ∃ disk', (HostFile.insert site.project.homeController (.action page)).on disk
        = (.ok .applied, disk')
      ∧ Kept site Fits there (actions ++ [page]) routes disk' := by
  obtain ⟨disk', hedit, hnew, hrefilled⟩ :=
    h.worded.insertAction hsound h.actionsFit h.routesFit hfits hmem
  refine ⟨disk', hedit, h.rewritten hsound (.inl rfl) h.controllerText hnew.controllerText
    hrefilled.same ?_ h.routesFit hnew.controllerText hnew.routesText⟩
  intro p hp
  rcases List.mem_append.1 hp with hp | hp
  · exact h.actionsFit p hp
  · rw [List.mem_singleton.1 hp]
    exact hfits

theorem removeAction (hsound : site.Sound Fits) (h : Kept site Fits there actions routes disk)
    (hfits : Fits page) (hmem : page ∈ actions) :
    ∃ disk', (HostFile.remove site.project.homeController (.action page)).on disk
        = (.ok .applied, disk')
      ∧ Kept site Fits there (actions.filter (· ≠ page)) routes disk' := by
  obtain ⟨disk', hedit, hnew, hrefilled⟩ :=
    h.worded.removeAction hsound h.actionsFit h.routesFit hfits hmem
  refine ⟨disk', hedit, h.rewritten hsound (.inl rfl) h.controllerText hnew.controllerText
    hrefilled.same ?_ h.routesFit hnew.controllerText hnew.routesText⟩
  exact fun p hp => h.actionsFit p (List.mem_filter.1 hp).1

theorem insertRoute (hsound : site.Sound Fits) (h : Kept site Fits there actions routes disk)
    (hfits : Fits page) (hmem : page ∉ routes) :
    ∃ disk', (HostFile.insert site.project.routes (.route page page)).on disk
        = (.ok .applied, disk')
      ∧ Kept site Fits there actions (routes ++ [page]) disk' := by
  obtain ⟨disk', hedit, hnew, hrefilled⟩ :=
    h.worded.insertRoute hsound h.actionsFit h.routesFit hfits hmem
  refine ⟨disk', hedit, h.rewritten hsound (.inr rfl) h.routesText hnew.routesText
    hrefilled.same h.actionsFit ?_ hnew.controllerText hnew.routesText⟩
  intro p hp
  rcases List.mem_append.1 hp with hp | hp
  · exact h.routesFit p hp
  · rw [List.mem_singleton.1 hp]
    exact hfits

theorem removeRoute (hsound : site.Sound Fits) (h : Kept site Fits there actions routes disk)
    (hfits : Fits page) (hmem : page ∈ routes) :
    ∃ disk', (HostFile.remove site.project.routes (.route page page)).on disk
        = (.ok .applied, disk')
      ∧ Kept site Fits there actions (routes.filter (· ≠ page)) disk' := by
  obtain ⟨disk', hedit, hnew, hrefilled⟩ :=
    h.worded.removeRoute hsound h.actionsFit h.routesFit hfits hmem
  refine ⟨disk', hedit, h.rewritten hsound (.inr rfl) h.routesText hnew.routesText
    hrefilled.same h.actionsFit ?_ hnew.controllerText hnew.routesText⟩
  exact fun p hp => h.routesFit p (List.mem_filter.1 hp).1

end Kept

end SiteScaffold.Command.Page

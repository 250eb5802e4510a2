/-
Runs of commands that add and remove pages. Whatever pages are added to a project and
removed again, in whatever order, all that belongs to a page is there together or not at
all, and the controller and the file of routes are the original ones once no page is left
(`run_keeps_in_step`). The only failures of the system that can end a command early are
those met while a file is placed.

The pages are those that the project knew nothing of at the start (`New`) and in whose way
no link stood that leads nowhere (`Free`). Such a link is taken for a free place, and what is
written there comes to be where it points: that can be the view of another page, which has
nothing else then (`not_inStep_behind_link`).
-/
import SiteScaffold.Proofs.Command.Page
import SiteScaffold.Proofs.Patch.SharedFile

namespace SiteScaffold.Command.Page

open Patch
open Patch.ControllerAction (definition)
open Patch.Pages (Texts Unused)
open Patch.Route (pageDeclaration pageLine)
open Project (Part)
open Text (NoRun)

variable {project : Project} {controller routes page : Text} {disk disk' : Disk} {site : Site}
  {Fits : Text → Prop} {live : List Text} {setting : Setting} {answers : Option (List Answer)}

-- ======================================================================== the start

/-- A project to start from: it opens, its controller has an `end` line and no run of
newlines, and its file of routes opens a block. -/
structure Start (project : Project) (controller routes : Text) (disk : Disk) : Prop where
  /-- Every entry of the disk stands in a folder. -/
  closed : disk.Closed
  opens : (Project.open project.root).on disk = (.ok project, disk)
  controllerText : disk.readText project.homeController = .ok controller
  routesText : disk.readText project.routes = .ok routes
  endLine : ∃ l ∈ Text.wholeLines controller, Text.trim l = "end".toList
  noRun : NoRun controller
  block : Route.opener.occursIn routes

/-- A page that can be asked for and that the project knows nothing of. -/
structure New (project : Project) (controller routes : Text) (disk : Disk) (page : Text) : Prop where
  name : ∃ raw, raw ≠ [] ∧ page = Name.normalize raw
  notPermanent : page ∉ permanentPages
  noFile : ∀ part : Part, disk.holds (part.path project page) = false
  noAction : (definition page).occursIn controller = false
  noRoute : (pageLine page).occursIn routes = false
  undeclared : ∀ l ∈ Text.lines routes, Text.trim l ≠ pageDeclaration page page

/-- A new page with no link that leads nowhere in the place of its files or of the folders
that they are kept in. -/
structure Free (project : Project) (controller routes : Text) (disk : Disk) (page : Text) : Prop
    extends New project controller routes disk page where
  noLink : ∀ part : Part, ∀ way ∈ Part.ways project part ++ [part.path project page],
    ¬ disk.Dangles way

theorem New.isNormal (h : New project controller routes disk page) : Name.IsNormal page := by
  obtain ⟨raw, -, rfl⟩ := h.name
  exact ⟨raw, rfl⟩

theorem New.unused (h : New project controller routes disk page) : Unused controller routes page where
  action := ⟨h.isNormal, h.noAction⟩
  route := ⟨h.isNormal, h.noRoute⟩
  undeclared := h.undeclared

/-- The texts of the project take free pages, whether the controller and the file of
routes are one file or two. -/
theorem Start.exists_site (h : Start project controller routes disk) :
    ∃ site : Site, site.project = project ∧ site.Sound (Free project controller routes disk)
      ∧ site.texts.controller [] [] = controller ∧ site.texts.routes [] [] = routes
      ∧ Holds site (Free project controller routes disk) [] disk := by
  obtain ⟨here, hcontroller⟩ := Disk.readText_eq_ok_iff.1 h.controllerText
  obtain ⟨there, hroutes⟩ := Disk.readText_eq_ok_iff.1 h.routesText
  obtain ⟨-, hmanifest⟩ := Bool.and_eq_true_iff.1 (Project.on_open_eq_ok.1 h.opens).2.2
  obtain ⟨place, x, c, hmanifest⟩ := Disk.isFile_iff.1 hmanifest
  have hunused : ∀ p, Free project controller routes disk p → Unused controller routes p :=
    fun p hp => hp.unused
  have hsame : here = there → controller = routes := by
    rintro rfl
    exact hcontroller.text_unique hroutes
  obtain ⟨texts, htakes, hshared, halone, halone', htext, htext'⟩ :=
    Patch.Pages.exists_texts hsame h.endLine h.noRun h.block hunused
  refine ⟨⟨project, texts, here, there, place⟩, rfl, ?_, htext, htext', List.nodup_nil, ?_⟩
  · exact ⟨htakes, fun page hpage => hpage.isNormal, hshared, halone, halone'⟩
  · have hroutesFile := hroutes
    obtain ⟨x', hlocate⟩ := hroutesFile
    refine ⟨h.closed, ?_, ?_, ⟨x, c, hmanifest⟩, by simp, by simp, ?_, ?_⟩
    · rw [htext]
      exact hcontroller
    · rw [htext']
      exact hroutes
    · intro page part hfits hmem
      cases hmem
    · intro page part hfits _
      have hways : ∀ way ∈ Part.ways project part, ¬ disk.Dangles way := fun way hway =>
        hfits.noLink part way (List.mem_append_left _ hway)
      exact Part.vacant h.closed hlocate hfits.isNormal hways
        (hfits.noLink part _ (by simp)) (hfits.noFile part)

-- ============================================================================= runs

/-- Whether all that belongs to a page is there, the action and the route once, or nothing
of it is. -/
structure InStep (project : Project) (disk : Disk) (page : Text) (there : Bool) : Prop where
  entry : ∀ part : Part, disk.holds (part.path project page) = there
  file : ∀ part : Part, disk.isFile (part.path project page) = there
  action : ∃ controller, disk.readText project.homeController = .ok controller
    ∧ ((definition page).hits controller).length = there.toNat
  route : ∃ routes, disk.readText project.routes = .ok routes
    ∧ ((pageLine page).hits routes).length = there.toNat

theorem Holds.inStep (hsound : site.Sound Fits) (hfits : Fits page) (h : Holds site Fits live disk) :
    InStep site.project disk page (decide (page ∈ live)) := by
  have hkept := h.kept
  have hcount : live.count page = (decide (page ∈ live)).toNat := by
    rw [h.nodup.count]
    by_cases hmem : page ∈ live
    · simp [hmem]
    · simp [hmem]
  refine ⟨fun part => ?_, fun part => ?_, ⟨_, Disk.readText_eq_ok_iff.2 ⟨_, hkept.controllerText⟩, ?_⟩,
    ⟨_, Disk.readText_eq_ok_iff.2 ⟨_, hkept.routesText⟩, ?_⟩⟩
  · by_cases hmem : page ∈ live
    · rw [hkept.holds hfits part hmem, decide_eq_true hmem]
    · rw [hkept.holds_eq_false hfits part hmem, decide_eq_false hmem]
  · by_cases hmem : page ∈ live
    · obtain ⟨k, hstands, -⟩ := hkept.stands page part hfits hmem
      rw [hstands.isFile, decide_eq_true hmem]
    · rw [Disk.isFile_of_holds (hkept.holds_eq_false hfits part hmem), decide_eq_false hmem]
  · rw [hsound.takes.definitions hkept.actionsFit hkept.routesFit hfits, hcount]
  · rw [hsound.takes.lines hkept.actionsFit hkept.routesFit hfits, hcount]

/-- Pages stay in step. Every run of commands that add and remove free pages, and that
meets no fault of the system, answers as `Request.step` says: a page is added if it is not
there and removed if it is. After it all that belongs to a free page is there once or not
at all, and without any such page the controller and the file of routes are the original
ones. The next command answers by what is there, and leaves the disk alone if it fails. -/
theorem run_keeps_in_step {requests : List Request} {outcomes : List (Except Failure Outcome)}
    (hstart : Start project controller routes disk)
    (hfree : ∀ request ∈ requests, Free project controller routes disk request.page)
    (hrun : (Request.perform setting answers project).run requests disk = (outcomes, disk'))
    (hsystem : ∀ outcome ∈ outcomes, ¬ FailsOfSystem outcome) :
    ∃ live, (Request.step project).run requests [] = (outcomes, live)
      ∧ (∀ page, Free project controller routes disk page →
        InStep project disk' page (decide (page ∈ live)))
      ∧ ((∀ page, Free project controller routes disk page →
          disk'.holds (project.view page) = false) →
        disk'.readText project.homeController = .ok controller
          ∧ disk'.readText project.routes = .ok routes)
      ∧ ∀ request, Free project controller routes disk (Request.page request) →
        ¬ FailsOfSystem (Request.perform setting answers project request disk').1 →
          (Request.perform setting answers project request disk').1
              = (Request.step project request live).1
            ∧ ∀ failure, (Request.step project request live).1 = .error failure →
              (Request.perform setting answers project request disk').2 = disk' := by
  obtain ⟨site, rfl, hsound, rfl, rfl, hholds⟩ := hstart.exists_site
  have hsimulates := Machine.run_simulates_of_allowed (Request.perform setting answers site.project)
    (Request.step site.project) (Holds site _) (fun outcome => ¬ FailsOfSystem outcome)
    (fun request hrequest live disk hbefore hallowed => by
      have hfits := hfree request hrequest
      obtain ⟨hanswer, hafter, -⟩ := hbefore.perform hsound hfits hfits.notPermanent hallowed
      exact ⟨hanswer, hafter⟩) hholds (by rw [hrun]; exact hsystem)
  rw [hrun] at hsimulates
  obtain ⟨houtcomes, hlast⟩ := hsimulates
  refine ⟨_, Prod.ext houtcomes.symm rfl, fun page hpage => hlast.inStep hsound hpage,
    fun hnone => ?_, fun request hpage hallowed => ?_⟩
  · have hnil : ((Request.step site.project).run requests []).2 = [] := by
      refine List.eq_nil_iff_forall_not_mem.2 fun page hmem => ?_
      have hfits := hlast.kept.actionsFit page hmem
      have hview : disk'.holds (site.project.view page) = true := hlast.kept.holds hfits .view hmem
      rw [hnone page hfits] at hview
      cases hview
    have hkept := hlast.kept
    rw [hnil] at hkept
    exact ⟨Disk.readText_eq_ok_iff.2 ⟨_, hkept.controllerText⟩,
      Disk.readText_eq_ok_iff.2 ⟨_, hkept.routesText⟩⟩
  · obtain ⟨hanswer, -, hfailed⟩ := hlast.perform hsound hpage hpage.notPermanent hallowed
    exact ⟨hanswer, hfailed⟩

-- ================================================================== a small project

/-- A setting in which no program can be started. -/
def idleSetting : Setting :=
  ⟨fun _ disk => (.error .missing, disk), "/", ⟨[], [], [], [], [], fun _ => []⟩⟩

def smallController : Text := "class HomeController\nend\n"

def smallRoutes : Text := "Rails.application.routes.draw do\nend\n"

/-- A disk with a small project on it. -/
def smallDisk : Disk :=
  ((((((Disk.blank.insert ["Gemfile".toList] (.file false (.text [])))
    |>.insert ["config".toList] .folder)
    |>.insert ["config".toList, "routes.rb".toList] (.file false (.text smallRoutes)))
    |>.insert ["app".toList] .folder)
    |>.insert ["app".toList, "controllers".toList] .folder)
    |>.insert ["app".toList, "controllers".toList, "home_controller.rb".toList]
      (.file false (.text smallController)))

/-- The small project with a link in it, in the place of one view and to that of another. -/
def linkedDisk : Disk :=
  ((smallDisk.insert ["app".toList, "views".toList] .folder)
    |>.insert ["app".toList, "views".toList, "home".toList] .folder)
    |>.insert ["app".toList, "views".toList, "home".toList, "a.html.erb".toList]
      (.link "b.html.erb")

theorem start_small (hclosed : ∀ entry ∈ disk.entries, disk.lookup entry.1.dropLast = some .folder)
    (hmanifest : disk.isFile (Project.path ⟨"/"⟩ Project.manifestName))
    (hcontroller : disk.readText (Project.homeController ⟨"/"⟩) = .ok smallController)
    (hroutes : disk.readText (Project.routes ⟨"/"⟩) = .ok smallRoutes) :
    Start ⟨"/"⟩ smallController smallRoutes disk where
  closed := Disk.closed_of_forall_mem hclosed
  opens := by
    obtain ⟨k, x, hlocate⟩ := Disk.readText_eq_ok_iff.1 hroutes
    have hfile := Disk.isFile_iff.2 ⟨_, _, _, hlocate⟩
    exact Project.on_open (by rw [hfile, hmanifest]; rfl)
  controllerText := hcontroller
  routesText := hroutes
  endLine := ⟨"end\n".toList, by decide, by decide⟩
  noRun := Text.noRun_of_count (by decide)
  block := by decide +kernel

/-- A page of any name that is made of one letter or of more, if nothing has it. -/
theorem new_small (raw : Text) (hraw : raw ≠ []) (hnormal : Name.normalize raw = page)
    (hpermanent : page ∉ permanentPages)
    (hview : disk.holds (Project.view ⟨"/"⟩ page) = false)
    (hstylesheet : disk.holds (Project.stylesheet ⟨"/"⟩ page) = false)
    (haction : (definition page).occursIn smallController = false)
    (hroute : (pageLine page).occursIn smallRoutes = false)
    (hundeclared : ∀ l ∈ Text.lines smallRoutes, Text.trim l ≠ pageDeclaration page page) :
    New ⟨"/"⟩ smallController smallRoutes disk page where
  name := ⟨raw, hraw, hnormal.symm⟩
  notPermanent := hpermanent
  noFile := by
    intro part
    cases part with
    | view => exact hview
    | stylesheet => exact hstylesheet
  noAction := haction
  noRoute := hroute
  undeclared := hundeclared

/-- A run on the small project: the second command finds the page that the first added,
which is all there. -/
theorem run_keeps_in_step_small :
    InStep ⟨"/"⟩ ((Request.perform idleSetting none ⟨"/"⟩).run [.add "About", .add "about"]
      smallDisk).2 "about" true := by
  have hstart : Start ⟨"/"⟩ smallController smallRoutes smallDisk :=
    start_small (by decide +kernel) (by decide +kernel) rfl rfl
  have habout : Free ⟨"/"⟩ smallController smallRoutes smallDisk "about" :=
    { new_small "About" (by decide) (by decide +kernel) (by decide) (by decide +kernel)
        (by decide +kernel) (by decide +kernel) (by decide +kernel) (by decide) with
      noLink := fun _ _ _ => Disk.not_dangles (by decide +kernel) }
  have hfree : ∀ request ∈ [Request.add "About", .add "about"],
      Free ⟨"/"⟩ smallController smallRoutes smallDisk request.page := by
    have hnormal : Name.normalize "About" = "about".toList
        ∧ Name.normalize "about" = "about".toList := by decide +kernel
    intro request hrequest
    simp only [List.mem_cons, List.not_mem_nil, or_false] at hrequest
    rcases hrequest with rfl | rfl
    · rw [Request.page, hnormal.1]
      exact habout
    · rw [Request.page, hnormal.2]
      exact habout
  have hsystem : ∀ outcome ∈ ((Request.perform idleSetting none ⟨"/"⟩).run
      [.add "About", .add "about"] smallDisk).1, ¬ FailsOfSystem outcome := by
    decide +kernel
  obtain ⟨live, hmodel, hstep, -⟩ := run_keeps_in_step hstart hfree (Prod.eta _).symm hsystem
  have hlive : live = ["about".toList] := (congrArg Prod.snd hmodel).symm.trans (by decide +kernel)
  have hthere := hstep "about" habout
  rw [hlive] at hthere
  exact hthere

/-- Behind a link that leads nowhere a page can have a view and no more: adding one page
writes the view of another. Both were new. -/
theorem not_inStep_behind_link :
    Start ⟨"/"⟩ smallController smallRoutes linkedDisk
      ∧ New ⟨"/"⟩ smallController smallRoutes linkedDisk "a"
      ∧ New ⟨"/"⟩ smallController smallRoutes linkedDisk "b"
      ∧ (Request.perform idleSetting none ⟨"/"⟩ (.add "a") linkedDisk).1.toOption = some .completed
      ∧ ∀ there, ¬ InStep ⟨"/"⟩ (Request.perform idleSetting none ⟨"/"⟩ (.add "a") linkedDisk).2 "b"
        there := by
  have hdisk : (Request.perform idleSetting none ⟨"/"⟩ (.add "a") linkedDisk).1.toOption
        = some .completed
      ∧ (Request.perform idleSetting none ⟨"/"⟩ (.add "a") linkedDisk).2.holds
        (Project.view ⟨"/"⟩ "b") = true
      ∧ (Request.perform idleSetting none ⟨"/"⟩ (.add "a") linkedDisk).2.holds
        (Project.stylesheet ⟨"/"⟩ "b") = false := by
    decide +kernel
  obtain ⟨hcompleted, hview, hstylesheet⟩ := hdisk
  refine ⟨start_small (by decide +kernel) (by decide +kernel) rfl rfl, ?_, ?_, hcompleted, ?_⟩
  · exact new_small "a" (by decide) (by decide +kernel) (by decide) (by decide +kernel)
      (by decide +kernel) (by decide +kernel) (by decide +kernel) (by decide)
  · exact new_small "b" (by decide) (by decide +kernel) (by decide) (by decide +kernel)
      (by decide +kernel) (by decide +kernel) (by decide +kernel) (by decide)
  · intro there hstep
    have hfirst := hstep.entry .view
    have hsecond := hstep.entry .stylesheet
    rw [← hsecond] at hfirst
    exact Bool.false_ne_true (hstylesheet.symm.trans (hfirst.symm.trans hview))

end SiteScaffold.Command.Page

/-
Runs of commands that add and remove pages and layouts. Whatever they are and however each
of them ends, no layout and no view gets two directives, the search for the layout of a view
comes to its directive and to no other one, and every layout that is declared has a file
(`run_keeps_in_order`).

No link may stand in the folder of the application. A layout can be written through a link
that leads nowhere, to where another layout is kept, and go when that one is removed
(`not_inOrder_behind_link`).
-/
import SiteScaffold.Command.Perform
import SiteScaffold.Proofs.Command.Layouts
import SiteScaffold.Proofs.Command.PageRun
import SiteScaffold.Proofs.Machine

namespace SiteScaffold.Command.Layout

open Disk (Tree)
open Patch
open Patch.Directives (line)
open Pattern (isQuote)
open Project (AppFile)
open Project.Part (app)

variable {project : Project} {top : Key} {ds : List (Text × Text)} {disk : Disk} {setting : Setting}
  {request : Request × Option (List Answer)}

-- ========================================================================== requests

/-- A command about a page or a layout of some name. -/
def Concerns : Command → Prop
  | .addPage name | .removePage name | .addLayout name _ | .removeLayout name => name ≠ []
  | _ => False

/-- Carries out requests, each with the answers that the operator gives to its questions. -/
def serve (setting : Setting) : Machine (Request × Option (List Answer)) Disk (Except Failure Outcome) :=
  fun (request, answers) disk =>
    let (outcome, session) := (perform request).on setting (Session.start disk answers)
    (outcome, session.disk)

/-- A command about a page or a layout keeps layouts and views linked, however it ends. -/
theorem linked_serve (h : Linked project top disk) (hfolder : request.1.folder = project.root)
    (hconcerns : Concerns request.1.command) : Linked project top (serve setting request disk).2 := by
  obtain ⟨⟨command, folder, assumeYes⟩, answers⟩ := request
  obtain rfl : folder = project.root := hfolder
  have hcarries : (perform ⟨command, project.root, assumeYes⟩).Carries setting (Linked project top)
      (Linked project top) fun _ => Linked project top := by
    cases command with
    | addPage name => exact Page.carries_add hconcerns
    | removePage name => exact Page.carries_remove
    | addLayout name view => exact carries_add hconcerns
    | removeLayout name => exact carries_remove
    | new | addStimulus | removeStimulus | addPin | removePin | run | build | version => cases hconcerns
  exact hcarries.keeps (Session.start disk answers) h

-- ============================================================================= runs

/-- A project to start from: no link is in the folder of the application, nothing is quoted in
the controller, and the views have proper names. -/
structure Start (project : Project) (top : Key) (disk : Disk) : Prop where
  tree : Tree (app project) top disk
  controller : ∃ t, disk.readText project.homeController = .ok t ∧ ∀ c ∈ t, isQuote c = false
  views : ∀ page x c, disk.lookup (top ++ (AppFile.view page).place) = some (.file x c) →
    Name.IsNormal page ∧ page ≠ []

/-- Whether the controller has one directive at most for each layout and for each view, the
search for the layout of a view comes to its directive, and the layouts that are declared
have files. -/
structure InOrder (project : Project) (t : Text) (disk : Disk) : Prop where
  text : disk.readText project.homeController = .ok t
  layouts : ∀ layout, Name.IsNormal layout →
    (Text.wholeLines t).countP ((LayoutDirective.declaration layout).occursIn ·) ≤ 1
  views : ∀ view, Name.IsNormal view → view ≠ [] →
    (Text.wholeLines t).countP ((LayoutDirective.directiveFor view).occursIn ·) ≤ 1
  found : ∀ layout view, Name.IsNormal view → view ≠ [] →
    ((layoutFor? project.homeController view).on disk = (.ok (some layout), disk)
      ↔ line (layout, view) ∈ Text.wholeLines t)
  files : ∀ layout, Name.IsNormal layout → (LayoutDirective.declaration layout).occursIn t →
    disk.isFile (project.layout layout)

theorem Start.linked (h : Start project top disk) : Linked project top disk := by
  obtain ⟨t, hread, hunquoted⟩ := h.controller
  obtain ⟨k, hholds⟩ := Disk.readText_eq_ok_iff.1 hread
  have hnamed : AppFile.controller.Named := trivial
  have hpath : project.homeController = _ := AppFile.path_eq hnamed project
  refine ⟨[], h.tree, ⟨t, ?_, Directives.paired_nil hunquoted⟩, by simp, h.views⟩
  rw [hpath] at hholds ⊢
  obtain ⟨-, rfl, -⟩ := (h.tree.holdsText_iff (by simp [AppFile.place]) (AppFile.isPlain hnamed)).1 hholds
  exact hholds

theorem Holds.inOrder (h : Holds project top ds disk) : ∃ t, InOrder project t disk := by
  obtain ⟨t, hholds, hpaired⟩ := h.controller
  refine ⟨t, Disk.readText_eq_ok_iff.2 ⟨_, hholds⟩, fun layout => hpaired.countP_declaration_le_one,
    fun view => hpaired.countP_directiveFor_le_one, ?_, ?_⟩
  · intro layout view hview hne
    obtain ⟨found, hfind, hlayouts⟩ := h.layoutFor? hview hne
    rw [hfind, hpaired.mem_wholeLines_iff, ← hlayouts]
    simp
  · intro layout hlayout hoccurs
    obtain ⟨d, hd, rfl⟩ := List.mem_map.1 ((Directives.occursIn_declaration_iff hpaired.toDeclares hlayout).1 hoccurs)
    exact h.isFile_layout hd

/-- Layouts and views stay in order. After every run of commands that add and remove pages
and layouts of the project, whether they complete, are declined or fail, no layout and no
view has two directives, the layout that is found for a view is the one that the directive
for it names, and every layout that is declared is there. -/
theorem run_keeps_in_order (setting : Setting) {requests : List (Request × Option (List Answer))}
    (hstart : Start project top disk) (hrequests : ∀ request ∈ requests, request.1.folder = project.root ∧ Concerns request.1.command) :
    ∃ t, InOrder project t ((serve setting).run requests disk).2 := by
  have hlast : Linked project top ((serve setting).run requests disk).2 := by
    refine Machine.run_keeps _ _ (fun request hrequest disk hbefore => ?_) hstart.linked
    obtain ⟨hfolder, hconcerns⟩ := hrequests request hrequest
    exact linked_serve hbefore hfolder hconcerns
  obtain ⟨ds, hholds⟩ := hlast
  exact hholds.inOrder

-- ================================================================== a small project

def smallController : Text := "class HomeController < ApplicationController\nend\n"

/-- A disk with a small project on it, the controller of which takes directives. -/
def smallDisk : Disk :=
  Page.smallDisk.insert ["app".toList, "controllers".toList, "home_controller.rb".toList]
    (.file false (.text smallController))

/-- The small project with a link in it, in the place of one layout and to that of another. -/
def linkedDisk : Disk :=
  ((smallDisk.insert ["app".toList, "views".toList] .folder)
    |>.insert ["app".toList, "views".toList, "layouts".toList] .folder)
    |>.insert ["app".toList, "views".toList, "layouts".toList, "a.html.erb".toList] (.link "b.html.erb")

/-- Requests in the small project, each question answered with yes. -/
def asked (commands : List Command) : List (Request × Option (List Answer)) :=
  commands.map fun command => (⟨command, "/", true⟩, none)

/-- A run on the small project: a page gets a layout, goes, and leaves the layout. -/
theorem run_keeps_in_order_small :
    InOrder ⟨"/"⟩ "class HomeController < ApplicationController\n  layout \"a\", only: :a\n\nend\n"
      ((serve Page.idleSetting).run (asked [.addPage "A", .addLayout "a" none, .removePage "a"]) smallDisk).2 := by
  have hclosed : smallDisk.Closed := Disk.closed_of_forall_mem (by decide +kernel)
  have hplain : Disk.Plain smallDisk [] := Disk.plain_of_forall_mem (by decide +kernel) []
  have happ : smallDisk.lookup ([] ++ ["app".toList]) = some .folder := by decide +kernel
  have hstart : Start ⟨"/"⟩ ["app".toList] smallDisk :=
    { tree := (Disk.tree_of_plain_root hclosed hplain).sub (by simp) happ
      controller := ⟨smallController, rfl, by decide +kernel⟩
      views := by
        intro page x c hlookup
        have hviews : smallDisk.lookup ["app".toList, "views".toList] = none := by decide +kernel
        have hnone : smallDisk.lookup (["app".toList, "views".toList] ++ ["home".toList, page ++ Project.viewSuffix])
            = none := hclosed.below (by rw [hviews]; simp) (List.prefix_append _ _) (by simp)
        cases hnone.symm.trans hlookup }
  have hrequests : ∀ request ∈ asked [.addPage "A", .addLayout "a" none, .removePage "a"],
      request.1.folder = Project.root ⟨"/"⟩ ∧ Concerns request.1.command := by
    intro request hrequest
    simp only [asked, List.map_cons, List.map_nil, List.mem_cons, List.not_mem_nil, or_false] at hrequest
    rcases hrequest with rfl | rfl | rfl
    all_goals exact ⟨rfl, by simp [Concerns]⟩
  obtain ⟨t, horder⟩ := run_keeps_in_order Page.idleSetting hstart hrequests
  have htext := horder.text
  have hread : ((((serve Page.idleSetting).run (asked [.addPage "A", .addLayout "a" none, .removePage "a"])
      smallDisk).2).readText (Project.homeController ⟨"/"⟩)).toOption
        = some "class HomeController < ApplicationController\n  layout \"a\", only: :a\n\nend\n".toList := by
    decide +kernel
  rw [htext] at hread
  cases hread
  exact horder

/-- Behind a link that leads nowhere a layout is lost with another one: what is written
there comes to be where that one is kept. Nothing was quoted, and there was no view. -/
theorem not_inOrder_behind_link :
    ((Project.open "/").on linkedDisk).1.toOption = some ⟨"/"⟩
      ∧ linkedDisk.readText (Project.homeController ⟨"/"⟩) = .ok smallController
      ∧ (Pattern.literal "layout".toList).occursIn smallController = false
      ∧ (∀ c ∈ smallController, isQuote c = false)
      ∧ ((Project.homeViews ⟨"/"⟩).on linkedDisk).1.toOption = some []
      ∧ (∀ request ∈ asked [.addPage "a", .addLayout "a" none, .removeLayout "b"],
        request.1.folder = Project.root ⟨"/"⟩ ∧ Concerns request.1.command)
      ∧ ∀ t, ¬ InOrder ⟨"/"⟩ t ((serve Page.idleSetting).run
        (asked [.addPage "a", .addLayout "a" none, .removeLayout "b"]) linkedDisk).2 := by
  have hdisk : ((((serve Page.idleSetting).run (asked [.addPage "a", .addLayout "a" none, .removeLayout "b"])
        linkedDisk).2).readText (Project.homeController ⟨"/"⟩)).toOption
          = some "class HomeController < ApplicationController\n  layout \"a\", only: :a\n\n  def a\n  end\n\nend\n".toList
      ∧ (((serve Page.idleSetting).run (asked [.addPage "a", .addLayout "a" none, .removeLayout "b"])
        linkedDisk).2).isFile (Project.layout ⟨"/"⟩ "a") = false := by
    decide +kernel
  obtain ⟨hread, hgone⟩ := hdisk
  refine ⟨by decide +kernel, rfl, by decide +kernel, by decide +kernel, by decide +kernel, ?_, fun t horder => ?_⟩
  · intro request hrequest
    simp only [asked, List.map_cons, List.map_nil, List.mem_cons, List.not_mem_nil, or_false] at hrequest
    rcases hrequest with rfl | rfl | rfl
    all_goals exact ⟨rfl, by simp [Concerns]⟩
  · have htext := horder.text
    rw [htext] at hread
    cases hread
    have hfile := horder.files "a" ⟨"a", by decide +kernel⟩ (by decide +kernel)
    rw [hgone] at hfile
    cases hfile

end SiteScaffold.Command.Layout

/-
A routes file under patching. Whatever routes are put into a file and taken out again, in
whatever order, it is at every point the original text with the declarations that are
live behind the line that opens the block of routes, a line each
(`run_keeps_declarations`).

A page's declaration goes in front of the others unless it is live. There is one root
route at most: a new one takes the place of the one that is live. Removing a page takes
out the lines of that page, whatever actions they lead to, and no other. One request then
does to the text what `Request.next` says of the list (`step_keeps_declarations`), and a
run follows by induction.
-/
import SiteScaffold.Proofs.Machine
import SiteScaffold.Proofs.Patch.HostFile
import SiteScaffold.Proofs.Patch.Route

namespace SiteScaffold.Patch.Routes

open Route (Declaration withDeclarations withRoot)
open Route.Declaration (isRoot isPage)

-- ============================================================ the original text

/-- A routes file in two parts, of which `opening` goes up to the end of the first line
that opens the block of routes. There is no root line in it. -/
structure Host (opening closing : Text) : Prop where
  opener : ∃ front hit, Route.opener.first? (opening ++ closing) = some (front, hit, closing)
    ∧ opening = front ++ hit.text
  noRoot : Route.rootLine.occursIn (opening ++ closing) = false

variable {opening closing : Text} {live : List Declaration}

theorem Host.frame (h : Host opening closing) : Route.Frame opening closing := by
  obtain ⟨front, hit, hfirst, rfl⟩ := h.opener
  exact ⟨Route.endsFirst_opener hfirst, Route.endsLine_opener hfirst, h.noRoot⟩

-- =================================================================== what is live

/-- Live declarations have normal names, none is live twice, and one of them at most
declares the root route. -/
structure Sound (live : List Declaration) : Prop where
  normal : ∀ d ∈ live, d.Normal
  once : live.Nodup
  rootOnce : live.countP isRoot ≤ 1

theorem sound_nil : Sound [] where
  normal := by simp
  once := .nil
  rootOnce := by simp

theorem Sound.cons {d : Declaration} (h : Sound live) (hd : d.Normal) (hmem : d ∉ live)
    (hroot : d.isRoot → ∀ e ∈ live, e.isRoot = false) : Sound (d :: live) where
  normal := by
    intro e he
    rcases List.mem_cons.1 he with rfl | he
    · exact hd
    · exact h.normal e he
  once := List.nodup_cons.2 ⟨hmem, h.once⟩
  rootOnce := by
    have honce := h.rootOnce
    rw [List.countP_cons]
    by_cases hisroot : d.isRoot
    · have hnone : live.countP isRoot = 0 := by
        rw [List.countP_eq_zero]
        intro e he
        simp [hroot hisroot e he]
      rw [if_pos hisroot]
      omega
    · rw [if_neg hisroot]
      omega

theorem Sound.filter (h : Sound live) (keep : Declaration → Bool) : Sound (live.filter keep) where
  normal := fun d hd => h.normal d (List.mem_filter.1 hd).1
  once := h.once.filter keep
  rootOnce := Nat.le_trans (List.filter_sublist.countP_le) h.rootOnce

/-- Another root route in the place of the one that was live. -/
theorem Sound.replaceRoot {old action : Text} {first second : List Declaration}
    (h : Sound (first ++ .root old :: second)) (haction : Name.IsNormal action)
    (hothers : ∀ d ∈ first ++ second, d.isRoot = false) :
    Sound (first ++ .root action :: second) where
  normal := by
    intro d hd
    have hnormal := h.normal
    simp only [List.mem_append, List.mem_cons] at hd hnormal
    rcases hd with hd | rfl | hd
    · exact hnormal d (.inl hd)
    · exact haction
    · exact hnormal d (.inr (.inr hd))
  once := by
    have hperm : ∀ d : Declaration, (first ++ d :: second).Perm (d :: (first ++ second)) :=
      fun _ => List.perm_middle
    have honce := (hperm _).nodup_iff.1 h.once
    refine (hperm _).nodup_iff.2 (List.nodup_cons.2 ⟨fun hmem => ?_, (List.nodup_cons.1 honce).2⟩)
    cases hothers _ hmem
  rootOnce := by
    have hroot := h.rootOnce
    simpa only [List.countP_append, List.countP_cons, isRoot] using hroot

-- ======================================================================= requests

/-- A request to patch a routes file. -/
inductive Request where
  | insertPage (page action : Text)
  | insertRoot (action : Text)
  | removePage (page : Text)
  deriving Repr, DecidableEq

namespace Request

/-- Requests to patch the routes file at a path. -/
def patch (path : Text) : Machine Request Disk (Except Failure Outcome)
  | insertPage page action => (HostFile.insert path (.route page action)).on
  | insertRoot action => (HostFile.insert path (.rootRoute action)).on
  | removePage page => (HostFile.remove path (.route page page)).on

/-- Whether the original text leaves a request its names. -/
def Fits (content : Text) : Request → Prop
  | insertPage page action => Name.IsNormal page ∧ Name.IsNormal action
    ∧ ∀ l ∈ Text.lines content, Text.trim l ≠ Route.pageDeclaration page action
  | insertRoot action => Name.IsNormal action
  | removePage page => Route.Fresh content page

/-- What is live after a request; nothing if there was nothing to do. -/
def next : Request → List Declaration → Option (List Declaration)
  | insertPage page action, live =>
    if .page page action ∈ live then none else some (.page page action :: live)
  | insertRoot action, live => withRoot action live
  | removePage page, live =>
    if live.any (isPage page) then some (live.filter (!isPage page ·)) else none

/-- What a request answers, and what is live after it. -/
def step : Machine Request (List Declaration) (Except Failure Outcome) := fun request live =>
  (.ok (HostFile.outcome (request.next live)), (request.next live).getD live)

end Request

variable {request : Request} {path : Text} {disk : Disk} {k : Key}

/-- What a request leaves live has normal names, is not live twice, and has one root
route at most. -/
theorem Request.sound_step (hfits : request.Fits (opening ++ closing)) (hsound : Sound live) :
    Sound (Request.step request live).2 := by
  cases request with
  | insertPage page action =>
      simp only [Request.step, Request.next]
      by_cases hmem : .page page action ∈ live
      · rw [if_pos hmem]
        exact hsound
      · rw [if_neg hmem]
        exact hsound.cons ⟨hfits.1, hfits.2.1⟩ hmem (by simp [isRoot])
  | insertRoot action =>
      simp only [Request.step, Request.next]
      by_cases hany : live.any isRoot
      · obtain ⟨old, first, second, rfl, hothers⟩ := Route.exists_root hany hsound.rootOnce
        rw [Route.withRoot_of_exists hothers]
        by_cases heq : old = action
        · rw [if_pos heq]
          exact hsound
        · rw [if_neg heq]
          exact hsound.replaceRoot hfits hothers
      · have hothers : ∀ d ∈ live, d.isRoot = false := by simpa using hany
        rw [withRoot, if_neg hany]
        refine hsound.cons hfits (fun hmem => ?_) fun _ => hothers
        cases hothers _ hmem
  | removePage page =>
      simp only [Request.step, Request.next]
      by_cases hany : live.any (isPage page)
      · rw [if_pos hany]
        exact hsound.filter _
      · rw [if_neg hany]
        exact hsound

/-- One request does to the file what it does to the list of what is live. -/
theorem step_keeps_declarations (hhost : Host opening closing)
    (hfits : request.Fits (opening ++ closing)) (hsound : Sound live)
    (h : disk.HoldsText path k (withDeclarations opening live closing)) :
    (Request.patch path request disk).1 = (Request.step request live).1
      ∧ (Request.patch path request disk).2.HoldsText path k
        (withDeclarations opening (Request.step request live).2 closing) := by
  have hanswer : ∀ edit : Edit Outcome, ∀ patched : Option Text,
      patched = ((request.next live).map fun new => withDeclarations opening new closing) →
      (∃ disk', edit.on disk = (.ok (HostFile.outcome patched), disk')
        ∧ disk'.HoldsText path k (patched.getD (withDeclarations opening live closing))
        ∧ Disk.Refilled k disk disk') →
      (edit.on disk).1 = (Request.step request live).1
        ∧ (edit.on disk).2.HoldsText path k
          (withDeclarations opening (Request.step request live).2 closing) := by
    rintro edit _ rfl ⟨disk', hedit, hread, -⟩
    rw [Option.getD_map] at hread
    rw [hedit, HostFile.outcome_map]
    exact ⟨rfl, hread⟩
  cases request with
  | insertPage page action =>
      obtain ⟨hpage, haction, habsent⟩ := hfits
      have hinsert := Route.insertPage_withDeclarations hhost.frame.opens hhost.frame.whole
        hpage haction hsound.normal habsent
      refine hanswer _ _ ?_ (HostFile.insert_on (.route page action) h hinsert)
      simp only [Request.next]
      by_cases hmem : .page page action ∈ live
      · rw [if_pos hmem, if_pos hmem]
        rfl
      · rw [if_neg hmem, if_neg hmem]
        rfl
  | insertRoot action =>
      have hinsert := Route.insertRoot_withDeclarations hhost.frame hfits hsound.normal hsound.rootOnce
      exact hanswer _ _ rfl (HostFile.insert_on (.rootRoute action) h hinsert)
  | removePage page =>
      have hremove := Route.removePage_withDeclarations hhost.frame.whole hfits hsound.normal
      refine hanswer _ _ ?_ (HostFile.remove_on (.route page page) h)
      refine hremove.trans ?_
      simp only [Request.next]
      by_cases hany : live.any (isPage page)
      · rw [if_pos hany, if_pos hany]
        rfl
      · rw [if_neg hany, if_neg hany]
        rfl

-- ============================================================================ runs

/-- What holds between what is live and the disk: the file is the original text with what
is live. -/
def Holds (path : Text) (k : Key) (opening closing : Text) (live : List Declaration) (disk : Disk) :
    Prop :=
  disk.HoldsText path k (withDeclarations opening live closing) ∧ Sound live

theorem run_holds {requests : List Request} (hhost : Host opening closing)
    (hfits : ∀ request ∈ requests, request.Fits (opening ++ closing))
    (h : Holds path k opening closing live disk) :
    ((Request.patch path).run requests disk).1 = (Request.step.run requests live).1
      ∧ Holds path k opening closing (Request.step.run requests live).2
        ((Request.patch path).run requests disk).2 := by
  refine Machine.run_simulates (Request.patch path) Request.step (Holds path k opening closing)
    (fun request hrequest live disk hboth => ?_) h
  obtain ⟨hread, hsound⟩ := hboth
  obtain ⟨hanswer, hread'⟩ := step_keeps_declarations hhost (hfits request hrequest) hsound hread
  exact ⟨hanswer, hread', Request.sound_step (hfits request hrequest) hsound⟩

/-- Removing pages, one after another, leaves the declarations of other pages and that of
the root. -/
theorem run_removePage (pages : List Text) (live : List Declaration) :
    (Request.step.run (pages.map .removePage) live).2
      = live.filter fun d => !pages.any fun page => d.isPage page := by
  induction pages generalizing live with
  | nil => exact (List.filter_eq_self.2 fun _ _ => rfl).symm
  | cons page pages ih =>
      have hstep : (Request.step (.removePage page) live).2 = live.filter (!isPage page ·) := by
        simp only [Request.step, Request.next]
        by_cases hany : live.any (isPage page)
        · rw [if_pos hany]
          rfl
        · rw [if_neg hany]
          refine (List.filter_eq_self.2 fun d hd => ?_).symm
          simpa using fun hispage => hany (List.any_eq_true.2 ⟨d, hd, hispage⟩)
      show (Request.step.run (pages.map .removePage) (Request.step (.removePage page) live).2).2 = _
      rw [ih, hstep, List.filter_filter]
      refine List.filter_congr fun d _ => ?_
      rw [List.any_cons, Bool.not_or, Bool.and_comm]

/-- Once every live page is removed, what is left is the root route. -/
theorem run_removePage_of_all {pages : List Text}
    (hpages : ∀ page action, .page page action ∈ live → page ∈ pages) :
    (Request.step.run (pages.map .removePage) live).2 = live.filter isRoot := by
  rw [run_removePage]
  refine List.filter_congr fun d hd => ?_
  cases d with
  | root action =>
      have hnone : (pages.any fun page => (Declaration.root action).isPage page) = false := by
        simp [isPage]
      rw [hnone]
      rfl
  | page name action =>
      have hsome : (pages.any fun page => (Declaration.page name action).isPage page) = true := by
        simpa [isPage] using hpages name action hd
      rw [hsome]
      rfl

/-- A run that puts in no root route leaves none live. -/
theorem run_without_root {requests : List Request} (h : ∀ d ∈ live, d.isRoot = false)
    (hrequests : ∀ action, .insertRoot action ∉ requests) :
    ∀ d ∈ (Request.step.run requests live).2, d.isRoot = false := by
  refine Machine.run_keeps Request.step (fun live => ∀ d ∈ live, d.isRoot = false) ?_ h
  intro request hrequest live hlive
  cases request with
  | insertRoot action => exact absurd hrequest (hrequests action)
  | insertPage page action =>
      simp only [Request.step, Request.next]
      by_cases hmem : .page page action ∈ live
      · rw [if_pos hmem]
        exact hlive
      · rw [if_neg hmem]
        intro d hd
        rcases List.mem_cons.1 hd with rfl | hd
        · rfl
        · exact hlive d hd
  | removePage page =>
      simp only [Request.step, Request.next]
      by_cases hany : live.any (isPage page)
      · rw [if_pos hany]
        exact fun d hd => hlive d (List.mem_filter.1 hd).1
      · rw [if_neg hany]
        exact hlive

/-- Patching a routes file is a matter of what is live. Every run of requests answers as
told by `Request.next`, and leaves the file with the original text and the live
declarations behind its opening. No declaration is live twice, and one at most is that of
the root. Once every live page is removed again, the file is the original text with the
root route at most, and without that if the run put none in. -/
theorem run_keeps_declarations {requests : List Request} (hhost : Host opening closing)
    (hfits : ∀ request ∈ requests, request.Fits (opening ++ closing))
    (h : disk.readText path = .ok (opening ++ closing)) :
    ((Request.patch path).run requests disk).1 = (Request.step.run requests []).1
      ∧ ((Request.patch path).run requests disk).2.readText path
        = .ok (withDeclarations opening (Request.step.run requests []).2 closing)
      ∧ (Request.step.run requests []).2.Nodup
      ∧ (Request.step.run requests []).2.countP isRoot ≤ 1
      ∧ ∀ pages : List Text, (∀ page ∈ pages, Route.Fresh (opening ++ closing) page) →
        (∀ page action, .page page action ∈ (Request.step.run requests []).2 → page ∈ pages) →
        ((Request.patch path).run (requests ++ pages.map .removePage) disk).2.readText path
            = .ok (withDeclarations opening ((Request.step.run requests []).2.filter isRoot) closing)
          ∧ ((∀ action, .insertRoot action ∉ requests) →
            ((Request.patch path).run (requests ++ pages.map .removePage) disk).2.readText path
              = .ok (opening ++ closing)) := by
  obtain ⟨k, hread⟩ := Disk.readText_eq_ok_iff.1 h
  have hstart : Holds path k opening closing [] disk := ⟨hread, sound_nil⟩
  obtain ⟨hanswers, hlast, hlive⟩ := run_holds hhost hfits hstart
  refine ⟨hanswers, Disk.readText_eq_ok_iff.2 ⟨k, hlast⟩, hlive.once, hlive.rootOnce, ?_⟩
  intro pages hpages hall
  have hfits' : ∀ request ∈ requests ++ pages.map .removePage, request.Fits (opening ++ closing) := by
    intro request hrequest
    rcases List.mem_append.1 hrequest with hrequest | hrequest
    · exact hfits request hrequest
    · obtain ⟨page, hpage, rfl⟩ := List.mem_map.1 hrequest
      exact hpages page hpage
  have hfile := Disk.readText_eq_ok_iff.2 ⟨k, (run_holds hhost hfits' hstart).2.1⟩
  rw [Machine.run_append Request.step, run_removePage_of_all hall] at hfile
  refine ⟨hfile, fun hroot => ?_⟩
  have hnone : (Request.step.run requests []).2.filter isRoot = [] := by
    refine List.filter_eq_nil_iff.2 fun d hd => ?_
    simp [run_without_root (by simp) hroot d hd]
  rw [hfile, hnone]
  rfl

/-- The line that opens the block of a small routes file. -/
def smallOpening : Text := "Rails.application.routes.draw do\n"

theorem host_small : Host smallOpening "end\n" where
  opener := ⟨[], ⟨smallOpening, []⟩, by decide +kernel, rfl⟩
  noRoot := by decide +kernel

/-- A disk with nothing but the small routes file on it. -/
def smallDisk : Disk :=
  Disk.blank.insert ["routes.rb".toList] (.file false (.text (smallOpening ++ "end\n")))

theorem readText_smallDisk : smallDisk.readText "/routes.rb" = .ok (smallOpening ++ "end\n".toList) := by
  refine Disk.readText_eq_ok_iff.2 ⟨["routes.rb".toList], false, Disk.locate_eq_ok_iff.2 ⟨?_, ?_⟩⟩
  · exact ⟨by decide, by decide, by decide⟩
  · refine .idle _ _ [] _ _ (by decide) (.file _ _ _ _ _ ?_ (by decide +kernel))
    exact ⟨by decide, by decide, by decide⟩

/-- The requests of a run on it. -/
def smallRequests : List Request :=
  [.insertRoot "index", .insertPage "a" "a", .insertPage "ab" "ab", .insertPage "a" "a",
    .insertRoot "home", .removePage "a"]

/-- A run on it: of two requests for one route the second does nothing, the second root
route takes the place of the first, and removing a page leaves the one whose name goes on
from it. Removing that leaves the root route. -/
theorem run_keeps_declarations_small :
    ((Request.patch "/routes.rb").run smallRequests smallDisk).1
      = [.ok .applied, .ok .applied, .ok .applied, .ok .unchanged, .ok .applied, .ok .applied]
    ∧ ((Request.patch "/routes.rb").run smallRequests smallDisk).2.readText "/routes.rb"
      = .ok (smallOpening ++ "  get \"/ab\", to: \"home#ab\"\n  root \"home#home\"\nend\n")
    ∧ ((Request.patch "/routes.rb").run (smallRequests ++ [.removePage "ab"]) smallDisk).2.readText
      "/routes.rb" = .ok (smallOpening ++ "  root \"home#home\"\nend\n") := by
  have ha : Route.Fresh (smallOpening ++ "end\n".toList) "a" :=
    ⟨⟨"A", by decide +kernel⟩, by decide +kernel⟩
  have hab : Route.Fresh (smallOpening ++ "end\n".toList) "ab" :=
    ⟨⟨"Ab", by decide +kernel⟩, by decide +kernel⟩
  have hroots : Name.IsNormal "index" ∧ Name.IsNormal "home" :=
    ⟨⟨"index", by decide +kernel⟩, ⟨"home", by decide +kernel⟩⟩
  have hlines : ∀ l ∈ Text.lines (smallOpening ++ "end\n".toList),
      Text.trim l ≠ Route.pageDeclaration "a" "a" ∧ Text.trim l ≠ Route.pageDeclaration "ab" "ab" := by
    decide +kernel
  have hrun := run_keeps_declarations host_small (fun request (hrequest : request ∈ smallRequests) => by
      simp only [smallRequests, List.mem_cons, List.not_mem_nil, or_false] at hrequest
      rcases hrequest with rfl | rfl | rfl | rfl | rfl | rfl
      · exact hroots.1
      · exact ⟨ha.normal, ha.normal, fun l hl => (hlines l hl).1⟩
      · exact ⟨hab.normal, hab.normal, fun l hl => (hlines l hl).2⟩
      · exact ⟨ha.normal, ha.normal, fun l hl => (hlines l hl).1⟩
      · exact hroots.2
      · exact ha) readText_smallDisk
  have hlive : (Request.step.run smallRequests []).2
      = [.page "ab".toList "ab".toList, .root "home".toList] := by
    decide
  obtain ⟨hanswers, hfile, -, -, hremoved⟩ := hrun
  rw [hlive] at hfile hremoved
  have hlast := hremoved ["ab".toList] (by simpa using hab) (by simp)
  exact ⟨hanswers.trans (by rfl), hfile.trans (congrArg Except.ok (by decide)),
    hlast.1.trans (congrArg Except.ok (by decide))⟩

end SiteScaffold.Patch.Routes

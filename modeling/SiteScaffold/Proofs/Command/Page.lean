/-
Adding and removing pages. A command does to the pages of a project what `Request.step`
says: it adds a page that is not there, removes one that is, and fails otherwise and leaves
the disk alone, unless the system reports a fault (`Holds.perform`).
-/
import SiteScaffold.Command.Perform
import SiteScaffold.Proofs.Command.Pages
import SiteScaffold.Proofs.Machine
import SiteScaffold.Proofs.Session

namespace SiteScaffold.Command.Page

open Patch.Pages (Texts)
open Project (Part)

-- ========================================================================== requests

/-- A command that concerns a page, by the name that the operator wrote. -/
inductive Request where
  | add (raw : Text)
  | remove (raw : Text)
  deriving DecidableEq

namespace Request

/-- The page that a command concerns. -/
def page : Request → Text
  | add raw | remove raw => Name.normalize raw

def command : Request → Command
  | add raw => .addPage raw
  | remove raw => .removePage raw

/-- Commands in a project, each in a session of its own and with every question answered
with yes. -/
def perform (setting : Setting) (answers : Option (List Answer)) (project : Project) :
    Machine Request Disk (Except Failure Outcome) := fun request disk =>
  let (answer, session) :=
    (Command.perform ⟨request.command, project.root, true⟩).on setting (Session.start disk answers)
  (answer, session.disk)

/-- What commands come to, in terms of the pages that are there. -/
def step (project : Project) : Machine Request (List Text) (Except Failure Outcome)
  | add raw, live =>
    let page := Name.normalize raw
    if page ∈ live then (.error ⟨[], .alreadyExists "View" (project.view page)⟩, live)
    else (.ok .completed, live ++ [page])
  | remove raw, live =>
    let page := Name.normalize raw
    if page ∈ live then (.ok .completed, live.filter (· ≠ page))
    else (.error ⟨[], .notFound "Page" page⟩, live)

end Request

/-- Whether a command came to a failure whose cause is the system. -/
def FailsOfSystem : Except Failure Outcome → Prop
  | .ok _ => False
  | .error failure => failure.OfSystem

instance : DecidablePred FailsOfSystem
  | .ok _ => .isFalse id
  | .error failure => inferInstanceAs (Decidable failure.OfSystem)

-- ============================================================================= state

/-- Whether the pages there are those, each with all that belongs to it. -/
structure Holds (site : Site) (Fits : Text → Prop) (live : List Text) (disk : Disk) : Prop where
  nodup : live.Nodup
  kept : Kept site Fits (fun page _ => page ∈ live) live live disk

variable {site : Site} {Fits : Text → Prop} {live : List Text} {disk : Disk} {setting : Setting}
  {request : Request}

/-- A page that is not there is added. -/
theorem add_ends (hsound : site.Sound Fits) {raw : Text} (hfits : Fits (Name.normalize raw))
    (hmem : Name.normalize raw ∉ live) (h : Holds site Fits live disk) :
    (add site.project.root raw).Ends setting disk fun answer disk' =>
      FailsOfSystem answer
        ∨ answer = .ok .completed ∧ Holds site Fits (live ++ [Name.normalize raw]) disk' := by
  generalize hpage : Name.normalize raw = page at hfits hmem ⊢
  have hkept := h.kept
  have hstyle : ¬ (page = page ∧ Part.stylesheet = .view ∨ page ∈ live) := by
    rintro (⟨-, heq⟩ | hlive)
    · cases heq
    · exact hmem hlive
  unfold add
  simp only [hpage]
  refine .bind_edit (Project.on_open hkept.isFile) (.bind_report ?_)
  rcases hkept.placeNew hsound hfits .view hmem "View" (Template.pageView page) with
    ⟨failure, disk', hedit, hsystem⟩ | ⟨disk₁, hedit, h₁⟩
  · exact .bind_edit_error hedit (.inl hsystem)
  refine .bind_edit hedit (.bind_report (.bind_edit (Edit.on_ask _) ?_))
  have hnone : disk₁.holds (site.project.stylesheet page) = false := h₁.holds_eq_false hfits .stylesheet hstyle
  rw [hnone]
  rcases h₁.placeNew hsound hfits .stylesheet hstyle "Stylesheet"
      (Template.pageStylesheet page) with
    ⟨failure, disk', hedit, hsystem⟩ | ⟨disk₂, hedit, h₂⟩
  · exact .bind_edit_error hedit (.inl hsystem)
  refine .bind_edit hedit (.bind_report ?_)
  obtain ⟨disk₃, hedit, h₃⟩ := h₂.insertAction hsound hfits hmem
  refine .bind_edit hedit (.bind_report ?_)
  obtain ⟨disk₄, hedit, h₄⟩ := h₃.insertRoute hsound hfits hmem
  refine .bind_edit hedit (.bind_report (.bind_report (.pure (.inr ⟨rfl, ?_, ?_⟩))))
  · refine List.nodup_append.2 ⟨h.nodup, by simp, fun p hp q hq => ?_⟩
    rw [List.mem_singleton.1 hq]
    rintro rfl
    exact hmem hp
  · refine h₄.of_iff fun p part => ?_
    cases part with
    | view => simp [or_comm]
    | stylesheet => simp [or_comm]

/-- A page that is there is not added again. -/
theorem add_ends_of_mem {raw : Text} (hfits : Fits (Name.normalize raw))
    (hmem : Name.normalize raw ∈ live) (h : Holds site Fits live disk) :
    (add site.project.root raw).Ends setting disk fun answer disk' =>
      answer = .error ⟨[], .alreadyExists "View" (site.project.view (Name.normalize raw))⟩
        ∧ disk' = disk := by
  have hkept := h.kept
  have hholds : disk.holds (site.project.view (Name.normalize raw)) = true :=
    hkept.holds hfits .view hmem
  unfold add
  refine .bind_edit (Project.on_open hkept.isFile) (.bind_report ?_)
  exact .bind_edit_error (Blueprint.placeNew_on_holds hholds) ⟨rfl, rfl⟩

/-- A page that is there is removed. -/
theorem remove_ends (hsound : site.Sound Fits) {raw : Text} (hfits : Fits (Name.normalize raw))
    (hpermanent : Name.normalize raw ∉ permanentPages) (hmem : Name.normalize raw ∈ live)
    (h : Holds site Fits live disk) :
    (remove site.project.root raw true).Ends setting disk fun answer disk' =>
      answer = .ok .completed
        ∧ Holds site Fits (live.filter (· ≠ Name.normalize raw)) disk' := by
  generalize hpage : Name.normalize raw = page at hfits hpermanent hmem ⊢
  have hkept := h.kept
  have hholds : disk.holds (site.project.view page) = true := hkept.holds hfits .view hmem
  unfold remove
  simp only [hpage]
  refine .bind_edit (Project.on_open hkept.isFile) (.bind_report ?_)
  rw [if_neg hpermanent]
  refine .bind_edit (Edit.on_ask _) ?_
  rw [hholds]
  refine .bind (.confirmed ?_)
  obtain ⟨disk₁, hedit, h₁⟩ := hkept.discard hsound hfits .view hmem
  refine .bind_edit hedit (.bind_report ?_)
  have hstyle : ¬ (page = page ∧ Part.stylesheet = .view) ∧ page ∈ live := by
    refine ⟨?_, hmem⟩
    rintro ⟨-, heq⟩
    cases heq
  obtain ⟨disk₂, hedit, h₂⟩ := h₁.discard hsound hfits .stylesheet hstyle
  refine .bind_edit hedit (.bind_report ?_)
  obtain ⟨disk₃, hedit, h₃⟩ := h₂.removeAction hsound hfits hmem
  refine .bind_edit hedit (.bind_report ?_)
  obtain ⟨disk₄, hedit, h₄⟩ := h₃.removeRoute hsound hfits hmem
  refine .bind_edit hedit (.bind_report (.bind_report (.pure ⟨rfl, ?_, ?_⟩)))
  · exact h.nodup.filter _
  · refine h₄.of_iff fun p part => ?_
    cases part with
    | view => simp [and_comm]
    | stylesheet => simp [and_comm]

/-- A page that is not there is not removed. -/
theorem remove_ends_of_notMem {raw : Text} (hfits : Fits (Name.normalize raw))
    (hpermanent : Name.normalize raw ∉ permanentPages) (hmem : Name.normalize raw ∉ live)
    (h : Holds site Fits live disk) :
    (remove site.project.root raw true).Ends setting disk fun answer disk' =>
      answer = .error ⟨[], .notFound "Page" (Name.normalize raw)⟩ ∧ disk' = disk := by
  have hkept := h.kept
  have hholds : disk.holds (site.project.view (Name.normalize raw)) = false :=
    hkept.holds_eq_false hfits .view hmem
  unfold remove
  refine .bind_edit (Project.on_open hkept.isFile) (.bind_report ?_)
  dsimp only
  rw [if_neg hpermanent]
  refine .bind_edit (Edit.on_ask _) ?_
  rw [hholds]
  exact .bind (.fail ⟨rfl, rfl⟩)

/-- A command does to the pages what `Request.step` says and answers so, unless the system
reports a fault. If it fails, the disk is as it was. -/
theorem Holds.perform {answers : Option (List Answer)} (hsound : site.Sound Fits)
    (hfits : Fits request.page) (hpermanent : request.page ∉ permanentPages)
    (h : Holds site Fits live disk)
    (hsystem : ¬ FailsOfSystem (Request.perform setting answers site.project request disk).1) :
    (Request.perform setting answers site.project request disk).1
        = (Request.step site.project request live).1
      ∧ Holds site Fits (Request.step site.project request live).2
        (Request.perform setting answers site.project request disk).2
      ∧ ∀ failure, (Request.step site.project request live).1 = .error failure →
        (Request.perform setting answers site.project request disk).2 = disk := by
  cases request with
  | add raw =>
      by_cases hmem : Name.normalize raw ∈ live
      · obtain ⟨hanswer, hdisk⟩ :=
          add_ends_of_mem hfits hmem h (Session.start disk answers) rfl
        simp only [Request.step, if_pos hmem]
        refine ⟨hanswer, ?_, fun _ _ => hdisk⟩
        show Holds site Fits live ((add site.project.root raw).on setting (Session.start disk answers)).2.disk
        rw [hdisk]
        exact h
      · have hends : (add site.project.root raw).Ends setting disk _ := add_ends hsound hfits hmem h
        obtain ⟨hanswer, hnext⟩ := (hends (Session.start disk answers) rfl).resolve_left hsystem
        simp only [Request.step, if_neg hmem]
        refine ⟨hanswer, hnext, fun failure heq => ?_⟩
        cases heq
  | remove raw =>
      by_cases hmem : Name.normalize raw ∈ live
      · obtain ⟨hanswer, hnext⟩ := remove_ends hsound hfits hpermanent hmem h
          (Session.start disk answers) rfl
        simp only [Request.step, if_pos hmem]
        refine ⟨hanswer, hnext, fun failure heq => ?_⟩
        cases heq
      · obtain ⟨hanswer, hdisk⟩ := remove_ends_of_notMem hfits hpermanent hmem h
          (Session.start disk answers) rfl
        simp only [Request.step, if_neg hmem]
        refine ⟨hanswer, ?_, fun _ _ => hdisk⟩
        show Holds site Fits live
          ((remove site.project.root raw true).on setting (Session.start disk answers)).2.disk
        rw [hdisk]
        exact h

end SiteScaffold.Command.Page

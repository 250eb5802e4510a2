/-
Commands that stop midway. Adding a page or a layout can find that a host file lacks the text
that its fragment is placed by, and removing a page that the controller cannot be read; what
was made or removed before stays so. The steps up to the one that makes or removes the file
that the command looks at first do not fail in this way (`Avoids`), and those after it leave
that file made or removed (`Carries`), so a command that stops midway always leaves it like
that (`Staged.on_of_stopped`).
-/
import SiteScaffold.Command.Perform
import SiteScaffold.Proofs.Blueprint
import SiteScaffold.Proofs.Command.Carried
import SiteScaffold.Proofs.Patch.HostFile
import SiteScaffold.Proofs.Project.File

namespace SiteScaffold

variable {α β : Type} {Midway : Failure → Prop} {Left : Disk → Prop} {setting : Setting}

-- ================================================================ failures that are not met

/-- Whether an edit never fails in a way. -/
def Edit.Avoids (Midway : Failure → Prop) (edit : Edit α) : Prop :=
  ∀ disk failure, (edit.on disk).1 = .error failure → ¬ Midway failure

namespace Edit.Avoids

theorem pure (answer : α) : (Pure.pure answer : Edit α).Avoids Midway := by
  intro disk failure h
  cases h

theorem fail {cause : Cause} (h : ¬ Midway ⟨[], cause⟩) : (Edit.fail cause : Edit α).Avoids Midway := by
  intro disk failure hfailure
  cases hfailure
  exact h

theorem ask (question : Disk → α) : (Edit.ask question).Avoids Midway := by
  intro disk failure h
  cases h

theorem look {doing : Text} {question : Disk → Except Fault α} (h : ∀ fault, ¬ Midway ⟨[doing], .system fault⟩) :
    (Edit.look doing question).Avoids Midway := by
  intro disk failure hfailure
  cases hquestion : question disk with
  | ok answer =>
      rw [Edit.on_look hquestion] at hfailure
      cases hfailure
  | error fault =>
      rw [Edit.on_look_error hquestion] at hfailure
      cases hfailure
      exact h fault

theorem bind {edit : Edit α} {next : α → Edit β} (h : edit.Avoids Midway) (hnext : ∀ answer, (next answer).Avoids Midway) :
    (edit >>= next).Avoids Midway := by
  intro disk failure hfailure
  cases hedit : edit.on disk with
  | mk outcome disk' =>
      cases outcome with
      | ok answer =>
          rw [Edit.on_bind_ok hedit] at hfailure
          exact hnext answer disk' failure hfailure
      | error first =>
          rw [Edit.on_bind_error hedit] at hfailure
          cases hfailure
          exact h disk failure (by rw [hedit])

theorem ite {yes no : Edit α} {c : Prop} [Decidable c] (hyes : yes.Avoids Midway) (hno : no.Avoids Midway) :
    (if c then yes else no).Avoids Midway := by
  split
  next => exact hyes
  next => exact hno

end Edit.Avoids

namespace Work

/-- Whether a part of a session never fails in a way. -/
def Avoids (setting : Setting) (Midway : Failure → Prop) (work : Work α) : Prop :=
  ∀ session failure, (work.on setting session).1 = .error failure → ¬ Midway failure

/-- Whether a part of a session that fails in a way leaves a disk of a kind. -/
def Stops (setting : Setting) (Midway : Failure → Prop) (Left : Disk → Prop) (work : Work α) : Prop :=
  ∀ session failure, (work.on setting session).1 = .error failure → Midway failure →
    Left (work.on setting session).2.disk

namespace Avoids

theorem pure (answer : α) : (Pure.pure answer : Work α).Avoids setting Midway := by
  intro session failure h
  cases h

theorem fail {cause : Cause} (h : ¬ Midway ⟨[], cause⟩) : (Work.fail cause : Work α).Avoids setting Midway := by
  intro session failure hfailure
  cases hfailure
  exact h

theorem report (manner : Manner) (text : Text) : (Work.report manner text).Avoids setting Midway := by
  intro session failure h
  cases h

theorem edit {change : Edit α} (h : change.Avoids Midway) : (Work.edit change).Avoids setting Midway := by
  intro session failure hfailure
  rw [on_edit] at hfailure
  exact h session.disk failure hfailure

theorem bind {work : Work α} {next : α → Work β} (h : work.Avoids setting Midway)
    (hnext : ∀ answer, (next answer).Avoids setting Midway) : (work >>= next).Avoids setting Midway := by
  intro session failure hfailure
  rw [on_bind] at hfailure
  cases hwork : work.on setting session with
  | mk outcome session' =>
      rw [hwork] at hfailure
      cases outcome with
      | ok answer => exact hnext answer session' failure hfailure
      | error first =>
          cases hfailure
          exact h session failure (by rw [hwork])

theorem ite {yes no : Work α} {c : Prop} [Decidable c] (hyes : yes.Avoids setting Midway)
    (hno : no.Avoids setting Midway) : (if c then yes else no).Avoids setting Midway := by
  split
  next => exact hyes
  next => exact hno

theorem ask {question : Text} (hterminal : ¬ Midway ⟨[], .noTerminal⟩) (hinterrupted : ¬ Midway ⟨[], .interrupted⟩) :
    (Work.ask question).Avoids setting Midway := by
  rintro ⟨disk, answers, reports, stdout, stderr, opened⟩ failure hfailure
  cases answers with
  | none =>
      cases hfailure
      exact hterminal
  | some answers =>
      cases answers with
      | nil =>
          cases hfailure
          exact hterminal
      | cons answer answers =>
          cases answer with
          | confirm yes | choose index => cases hfailure
          | escape =>
              cases hfailure
              exact hinterrupted

end Avoids

namespace Stops

theorem bind {work : Work α} {next : α → Work β} (h : work.Avoids setting Midway)
    (hnext : ∀ session answer, (work.on setting session).1 = .ok answer → (next answer).Stops setting Midway Left) :
    (work >>= next).Stops setting Midway Left := by
  intro session failure hfailure hmidway
  rw [on_bind] at hfailure ⊢
  cases hwork : work.on setting session with
  | mk outcome session' =>
      rw [hwork] at hfailure
      cases outcome with
      | ok answer => exact hnext session answer (by rw [hwork]) session' failure hfailure hmidway
      | error first =>
          cases hfailure
          exact absurd hmidway (h session failure (by rw [hwork]))

/-- After the edit that leads to such disks they are kept. -/
theorem bind_edit {change : Edit α} {next : α → Work β} (h : change.Avoids Midway)
    (hleft : ∀ disk answer disk', change.on disk = (.ok answer, disk') → Left disk')
    (hnext : ∀ answer, (next answer).Carries setting Left Left fun _ => Left) :
    (Work.edit change >>= next).Stops setting Midway Left := by
  intro session failure hfailure hmidway
  rw [on_bind, on_edit] at hfailure ⊢
  cases hchange : change.on session.disk with
  | mk outcome disk' =>
      rw [hchange] at hfailure
      cases outcome with
      | ok answer => exact (hnext answer).keeps _ (hleft session.disk answer disk' hchange)
      | error first =>
          cases hfailure
          exact absurd hmidway (h session.disk failure (by rw [hchange]))

/-- Nothing comes after a failure. -/
theorem fail_bind {cause : Cause} {next : α → Work β} (h : ¬ Midway ⟨[], cause⟩) :
    ((Work.fail cause : Work α) >>= next).Stops setting Midway Left := by
  intro session failure hfailure hmidway
  cases hfailure
  exact absurd hmidway h

theorem of_avoids {work : Work α} (h : work.Avoids setting Midway) : work.Stops setting Midway Left :=
  fun session failure hfailure hmidway => absurd hmidway (h session failure hfailure)

theorem mono {work : Work α} {Left' : Disk → Prop} (hleft : ∀ disk, Left' disk → Left disk)
    (h : work.Stops setting Midway Left') : work.Stops setting Midway Left :=
  fun session failure hfailure hmidway => hleft _ (h session failure hfailure hmidway)

theorem ite {yes no : Work α} {c : Prop} [Decidable c] (hyes : yes.Stops setting Midway Left)
    (hno : no.Stops setting Midway Left) : (if c then yes else no).Stops setting Midway Left := by
  split
  next => exact hyes
  next => exact hno

end Stops

end Work

namespace Command

open Disk (Covers)
open Patch
open Project (File)
open Work (Avoids Carries Stops)

variable {project : Project} {raw : Text} {asked : Option Text} {assumeYes : Bool} {disk : Disk}

-- ======================================================================== no anchor

/-- Whether a host file lacks the text that a fragment is placed by. -/
def NoAnchor (failure : Failure) : Prop := ∃ anchor path, failure.cause = .anchorMissing anchor path

theorem not_noAnchor_of_system {failure : Failure} (h : failure.OfSystem) : ¬ NoAnchor failure := by
  rintro ⟨anchor, path, hcause⟩
  rw [Failure.OfSystem, hcause] at h
  cases h

theorem avoids_open (h : ∀ folder, ¬ Midway ⟨[], .notAProject folder⟩) (folder : Text) :
    (Project.open folder).Avoids Midway :=
  .bind (.ask _) fun _ => .ite (.pure _) (.fail (h folder))

theorem avoids_placeNew {path what content : Text} : (Blueprint.placeNew path what content).Avoids NoAnchor := by
  intro disk failure hfailure
  obtain ⟨-, ⟨failure', hanswer, hcause⟩ | ⟨hanswer, -⟩⟩ :=
    Blueprint.placeNew_covers (Prod.eta ((Blueprint.placeNew path what content).on disk)).symm
  · rw [hanswer] at hfailure
    cases hfailure
    rcases hcause with hthere | hsystem
    · rintro ⟨anchor, path', hcause⟩
      rw [hthere] at hcause
      cases hcause
    · exact not_noAnchor_of_system hsystem
  · rw [hanswer] at hfailure
    cases hfailure

theorem holds_of_placeNew {path what content : Text} {disk' : Disk} {answer : Unit}
    (h : (Blueprint.placeNew path what content).on disk = (.ok answer, disk')) : disk'.holds path = true := by
  obtain ⟨-, ⟨failure, hanswer, -⟩ | ⟨-, hfile⟩⟩ := Blueprint.placeNew_covers h
  · cases hanswer
  · exact Disk.holds_of_isFile hfile

/-- What is on the disk stays there when something is put in or placed. -/
theorem carries_covers {path : Text} {change : Edit α} (h : ∀ disk, Covers disk (change.on disk).2) :
    (Work.edit change).Carries setting (·.holds path = true) (·.holds path = true) fun _ => (·.holds path = true) :=
  .edit_keeps fun disk hholds => (h disk).holds hholds

theorem carries_insert {path host : Text} {fragment : Fragment} :
    (Work.edit (HostFile.insert host fragment)).Carries setting (·.holds path = true) (·.holds path = true)
      fun _ => (·.holds path = true) :=
  carries_covers fun disk => (HostFile.covers_insert disk host fragment).1

/-- A command starts with the project in the folder and tells what it does. -/
theorem stops_opened {text : Text} {next : Project → Work Outcome} (hfolder : ∀ folder, ¬ Midway ⟨[], .notAProject folder⟩)
    (hnext : (next project).Stops setting Midway Left) :
    ((liftM (Project.open project.root) : Work Project) >>= fun opened =>
      Work.intro text >>= fun _ => next opened).Stops setting Midway Left := by
  refine .bind (.edit (avoids_open hfolder _)) fun session opened hopened => ?_
  have hopen : ((Work.edit (Project.open project.root)).on setting session).1 = .ok opened := hopened
  rw [Work.on_edit] at hopen
  obtain ⟨rfl, -⟩ := Project.on_open_eq_ok.1 (Edit.on_of_fst hopen)
  exact .bind (.report _ _) fun _ _ _ => hnext

/-- A page that is added midway has its view. -/
theorem Page.stops_add : (Page.add project.root raw).Stops setting NoAnchor
    (·.holds (project.view (Name.normalize raw)) = true) := by
  apply stops_opened
  · rintro folder ⟨anchor, path, hcause⟩
    cases hcause
  refine Stops.bind_edit avoids_placeNew (fun _ _ _ => holds_of_placeNew) fun _ => ?_
  apply Carries.bind .report
  intro _
  apply Page.carries_stylesheet (carries_covers fun disk => Blueprint.covers_placeNew disk _ _ _)
  apply carries_patch carries_insert
  apply carries_patch carries_insert
  exact .bind .report fun _ => .pure fun _ => id

-- ================================================================== the view of a layout

theorem not_noAnchor_of_cause {cause : Cause} (h : ∀ anchor path, cause ≠ .anchorMissing anchor path) :
    ¬ NoAnchor ⟨[], cause⟩ := by
  rintro ⟨anchor, path, hcause⟩
  exact h anchor path hcause

theorem Layout.avoids_viewFor {layout : Text} {views : List Text} :
    (Layout.viewFor layout views asked assumeYes).Avoids setting NoAnchor := by
  unfold Layout.viewFor
  cases asked with
  | some raw => exact .ite (.pure _) (.fail (not_noAnchor_of_cause (by simp)))
  | none =>
      apply Avoids.ite (.bind (.report _ _) fun _ => .pure _)
      apply Avoids.ite (.fail (not_noAnchor_of_cause (by simp)))
      apply Avoids.ite (.fail (not_noAnchor_of_cause (by simp)))
      apply Avoids.bind
      · apply Avoids.bind (.ask (not_noAnchor_of_cause (by simp)) (not_noAnchor_of_cause (by simp)))
        intro answer
        cases answer with
        | choose index | confirm yes | escape => exact .pure _
      · intro chosen
        cases chosen with
        | some view => exact .pure view
        | none => exact .fail (not_noAnchor_of_cause (by simp))

theorem avoids_homeViews : project.homeViews.Avoids NoAnchor :=
  .bind (.ask _) fun _ => .ite (.pure _) (.bind (.look fun _ => not_noAnchor_of_system rfl) fun _ => .pure _)

theorem avoids_layoutFor? {controller view : Text} : (layoutFor? controller view).Avoids NoAnchor :=
  .bind (.ask _) fun _ => .ite (.bind (.look fun _ => not_noAnchor_of_system rfl) fun _ => .pure _) (.pure _)

/-- A layout that is added midway has its file. -/
theorem Layout.stops_add : (Layout.add project.root raw asked assumeYes).Stops setting NoAnchor
    (·.holds (project.layout (Name.normalize raw)) = true) := by
  apply stops_opened
  · exact fun folder => not_noAnchor_of_cause (by simp)
  refine Stops.bind (.edit (.ask _)) fun _ held _ => ?_
  refine Stops.ite (.fail_bind (not_noAnchor_of_cause (by simp))) ?_
  refine Stops.bind (.edit avoids_homeViews) fun _ views _ => ?_
  refine Stops.bind avoids_viewFor fun _ view _ => ?_
  refine Stops.bind (.edit avoids_layoutFor?) fun _ found _ => ?_
  cases found with
  | some present => exact .fail_bind (not_noAnchor_of_cause (by simp))
  | none =>
      refine Stops.bind (.edit (.ask _)) fun _ title _ => ?_
      refine Stops.bind_edit avoids_placeNew (fun _ _ _ => holds_of_placeNew) fun _ => ?_
      apply Carries.bind .report
      intro _
      apply Carries.bind (Layout.carries_declareLayout carries_insert)
      intro _
      exact .bind .report fun _ => .pure fun _ => id

-- ======================================================================== no controller

/-- Whether a file could not be read. -/
def Unread (path : Text) (failure : Failure) : Prop := failure.context = ["Failed to read " ++ path]

theorem not_unread_of_cause {path : Text} {cause : Cause} : ¬ Unread path ⟨[], cause⟩ := by
  intro h
  cases h

variable {path host name : Text} {steps : List Text} {fragment : Fragment}

theorem avoids_discard (hpath : Path.segments path = steps ++ [name]) (hname : Path.IsName name) :
    (Blueprint.discard path).Avoids (Unread host) := by
  intro disk failure hfailure hunread
  obtain ⟨-, ⟨fault, -, -, hanswer⟩ | ⟨⟨removed, hanswer⟩, -⟩⟩ :=
    Blueprint.discard_gone hpath hname (Prod.eta ((Blueprint.discard path).on disk)).symm
  · rw [hanswer] at hfailure
    cases hfailure
    have htext := List.singleton_inj.1 hunread
    simp at htext
  · rw [hanswer] at hfailure
    cases hfailure

/-- What is gone does not come back when something is discarded or taken out. -/
theorem carries_discard {other : Text} (hpath : Path.segments path = steps ++ [name]) (hname : Path.IsName name) :
    (Work.edit (Blueprint.discard path)).Carries setting (·.holds other = false) (·.holds other = false)
      fun _ => (·.holds other = false) := by
  refine .edit_keeps fun disk hgone => ?_
  obtain ⟨hfewer, -⟩ := Blueprint.discard_gone hpath hname (Prod.eta ((Blueprint.discard path).on disk)).symm
  exact (Covers.of_kept hfewer).holds_eq_false hgone

theorem carries_removed :
    (Work.edit (HostFile.remove host fragment)).Carries setting (·.holds path = false) (·.holds path = false)
      fun _ => (·.holds path = false) :=
  .edit_keeps fun disk hgone => (HostFile.covers_remove disk host fragment).2.holds_eq_false hgone

theorem avoids_confirmed {question : Text} : (confirmed assumeYes question).Avoids setting (Unread host) := by
  refine Avoids.ite (.bind (.report _ _) fun _ => .pure _) (.bind (.ask not_unread_of_cause not_unread_of_cause) ?_)
  intro answer
  cases answer with
  | confirm yes | choose index | escape => exact .pure _

/-- The view of a page that is removed midway is gone, and the project can do without the page. -/
theorem Page.stops_remove : (Page.remove project.root raw assumeYes).Stops setting (Unread project.homeController)
    fun disk => disk.holds (project.view (Name.normalize raw)) = false ∧ Name.normalize raw ∉ Page.permanentPages := by
  have hview : (File.app (.view (Name.normalize raw))).Named := ⟨raw, rfl⟩
  have hsheet : (File.app (.stylesheet (Name.normalize raw))).Named := ⟨raw, rfl⟩
  have hpath := File.segments_path hview project
  have hname := (File.isPlain_name hview).toIsName
  refine stops_opened (fun _ => not_unread_of_cause) ?_
  by_cases hpermanent : Name.normalize raw ∈ Page.permanentPages
  · rw [if_pos hpermanent]
    exact .fail_bind not_unread_of_cause
  · rw [if_neg hpermanent]
    refine Stops.mono (fun disk (hgone : disk.holds _ = false) => ⟨hgone, hpermanent⟩) ?_
    refine Stops.bind (.edit (.ask _)) fun _ held _ => ?_
    refine Stops.ite (.fail_bind not_unread_of_cause) ?_
    refine Stops.bind avoids_confirmed fun _ agreed _ => ?_
    refine Stops.ite (.of_avoids (.bind (.report _ _) fun _ => .pure _)) ?_
    refine Stops.bind_edit (avoids_discard hpath hname) ?_ fun removed => ?_
    · intro disk answer disk' hdiscard
      obtain ⟨-, ⟨fault, -, -, hanswer⟩ | ⟨-, hgone⟩⟩ := Blueprint.discard_gone hpath hname hdiscard
      · cases hanswer
      · exact hgone
    · apply Carries.bind .report
      intro _
      apply Carries.bind (carries_discard (File.segments_path hsheet project) (File.isPlain_name hsheet).toIsName)
      intro _
      refine .optional .report ?_
      apply carries_patch carries_removed
      apply carries_patch carries_removed
      exact .bind .report fun _ => .pure fun _ => id

end Command

end SiteScaffold

/-
What commands have in common, by what it carries a disk to: how they start (`carries_opened`),
what they go on after (`carries_checked`, `carries_agreed`), and how they patch a host file
(`carries_patch`). Only the edits on the way touch the disk, so what these keep is kept.
-/
import SiteScaffold.Command.Layout
import SiteScaffold.Command.Page
import SiteScaffold.Proofs.Carried
import SiteScaffold.Proofs.Command.Refusal
import SiteScaffold.Proofs.Project

namespace SiteScaffold.Command

open Patch
open Work (Carries)

variable {project : Project} {setting : Setting} {Always Before Between After : Disk → Prop} {layout view : Text}

/-- A project that opens is the one in the folder. -/
theorem carries_open :
    (Work.edit (Project.open project.root)).Carries setting Always Always
      fun opened disk => opened = project ∧ Always disk := by
  refine .edit fun disk halways outcome disk' hopen => ?_
  cases outcome with
  | ok opened =>
      obtain ⟨rfl, rfl, -⟩ := Project.on_open_eq_ok.1 hopen
      exact ⟨rfl, halways⟩
  | error failure =>
      have hdisk := (Project.still_open project.root disk trivial).1
      rw [hopen] at hdisk
      rw [show disk' = disk from hdisk]
      exact halways

/-- A command starts with the project in the folder and tells what it does. -/
theorem carries_opened {text : Text} {next : Project → Work Outcome}
    (hnext : (next project).Carries setting Always Always fun _ => Always) :
    ((liftM (Project.open project.root) : Work Project) >>= fun opened =>
      Work.intro text >>= fun _ => next opened).Carries setting Always Always fun _ => Always := by
  apply Carries.bind carries_open
  intro opened
  apply Carries.of_and
  intro hopened
  subst hopened
  exact .bind .report fun _ => hnext

/-- It goes on unless a check fails. -/
theorem carries_checked {check : Disk → Bool} {fails : Bool → Prop} [DecidablePred fails] {cause : Cause}
    {unreached : PUnit → Work Outcome} {next : Work Outcome}
    (hnext : next.Carries setting Always Always fun _ => Always) :
    ((liftM (Edit.ask check) : Work Bool) >>= fun found =>
      if fails found then Work.fail cause >>= unreached else next).Carries setting Always Always fun _ => Always := by
  apply Carries.bind_still (.edit (Edit.still_ask _)) fun _ => id
  intro found
  exact .ite (fun _ => .fail_bind fun _ => id) fun _ => hnext

/-- It goes on unless the operator declines. -/
theorem carries_agreed {assumeYes : Bool} {question : Text} {next : Work Outcome}
    (hnext : next.Carries setting Always Always fun _ => Always) :
    (confirmed assumeYes question >>= fun agreed =>
      if (!agreed) = true then decline else next).Carries setting Always Always fun _ => Always := by
  apply Carries.bind_still (still_confirmed _ _) fun _ => id
  intro agreed
  exact .ite (fun _ => .of_still still_decline fun _ => id) fun _ => hnext

/-- Patching a file, and the report of it. -/
theorem carries_patch {change : Edit Patch.Outcome} {applied unchanged : Text} {next : Unit → Work Outcome}
    (h : (Work.edit change).Carries setting Always Before fun _ => Between)
    (hnext : (next ()).Carries setting Always Between fun _ => After) :
    ((liftM change : Work Patch.Outcome) >>= fun outcome => reportPatch outcome applied unchanged >>= next).Carries
      setting Always Before fun _ => After := by
  refine .bind h fun outcome => ?_
  cases outcome with
  | applied | unchanged => exact .bind .report fun _ => hnext

/-- A stylesheet is made if there is none. -/
theorem Page.carries_stylesheet {path what content kept created : Text} {next : Unit → Work Outcome}
    (hplace : (Work.edit (Blueprint.placeNew path what content)).Carries setting Always Always fun _ => Always)
    (hnext : (next ()).Carries setting Always Always fun _ => Always) :
    ((liftM (Edit.ask (·.holds path)) : Work Bool) >>= fun held =>
      if held = true then Work.warning kept >>= next
      else (liftM (Blueprint.placeNew path what content) : Work Unit) >>= fun _ =>
        Work.success created >>= next).Carries setting Always Always fun _ => Always := by
  apply Carries.bind_still (.edit (Edit.still_ask _)) fun _ => id
  intro held
  apply Carries.ite
  · exact fun _ => .bind .report fun _ => hnext
  · exact fun _ => .bind hplace fun _ => .bind .report fun _ => hnext

/-- What always holds after the directive is put in holds after a warning instead, too. -/
theorem Layout.carries_declareLayout {controller : Text}
    (h : (Work.edit (HostFile.insert controller (.layout layout view homeClass))).Carries setting Always Before
      fun _ => Always) :
    (Layout.declareLayout controller layout view).Carries setting Always Before fun _ => Always := by
  apply Carries.andThen
  · refine .tryCatch (.map h) fun failure => ?_
    exact .ite (fun _ => .bind .report fun _ => .pure fun _ => id) fun _ => .throw fun _ => id
  · intro outcome
    cases outcome with
    | none => exact .pure fun _ => id
    | some outcome =>
        cases outcome with
        | applied | unchanged => exact .report

end SiteScaffold.Command

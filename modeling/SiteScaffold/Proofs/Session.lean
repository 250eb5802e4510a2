/-
What parts of a session come to on a disk. What is reported and what is asked does not
matter for the disk unless an answer is waited for, so a part that asks nothing is
described by its answer and by the disk it leaves (`Work.Ends`), and a part made of several
by what those come to, the last one first (`Ends.bind`).
-/
import SiteScaffold.Command.Basic
import SiteScaffold.Proofs.Edit

namespace SiteScaffold.Work

variable {α β : Type} {setting : Setting} {disk : Disk}
  {Expected Expected' : Except Failure α → Disk → Prop}

theorem on_edit (change : Edit α) (setting : Setting) (session : Session) :
    (Work.edit change).on setting session
      = ((change.on session.disk).1, { session with disk := (change.on session.disk).2 }) := by
  unfold Work.edit Work.on Edit.on
  -- what is left when the new disk is kept
  show (_ : Work α) setting { session with disk := (change session.disk).2 } = _
  cases (change session.disk).1 with
  | ok answer => rfl
  | error failure => rfl

/-- What comes after an answer goes on from there, and a failure is the last of it. -/
theorem on_bind (work : Work α) (next : α → Work β) (session : Session) :
    (work >>= next).on setting session = match work.on setting session with
      | (.ok answer, session') => (next answer).on setting session'
      | (.error failure, session') => (.error failure, session') := by
  unfold on
  simp only [Bind.bind, ReaderT.bind, ExceptT.bind, StateT.bind, ExceptT.mk]
  cases work setting session with
  | mk answer session' =>
      cases answer with
      | ok answer => rfl
      | error failure => rfl

/-- What takes care of a failure goes on from there. -/
theorem on_tryCatch (work : Work α) (handler : Failure → Work α) (session : Session) :
    (tryCatch work handler).on setting session = match work.on setting session with
      | (.ok answer, session') => (.ok answer, session')
      | (.error failure, session') => (handler failure).on setting session' := by
  show (_ : Except Failure α × Session) = _
  unfold on
  simp only [tryCatch, tryCatchThe, MonadExceptOf.tryCatch, ExceptT.tryCatch, ExceptT.mk, Bind.bind,
    StateT.bind]
  cases work setting session with
  | mk answer session' =>
      cases answer with
      | ok answer => rfl
      | error failure => rfl

/-- Whether a part of a session comes to an answer and leaves a disk as expected, whatever
the session holds beside the disk. -/
def Ends (work : Work α) (setting : Setting) (disk : Disk)
    (Expected : Except Failure α → Disk → Prop) : Prop :=
  ∀ session, session.disk = disk →
    Expected (work.on setting session).1 (work.on setting session).2.disk

namespace Ends

theorem bind {work : Work α} {next : α → Work β} {Expected : Except Failure β → Disk → Prop}
    (h : work.Ends setting disk fun answer disk' =>
      match answer with
      | .ok answer => (next answer).Ends setting disk' Expected
      | .error failure => Expected (.error failure) disk') :
    (work >>= next).Ends setting disk Expected := by
  intro session hdisk
  have hfirst := h session hdisk
  rw [on_bind]
  cases hwork : work.on setting session with
  | mk answer session' =>
      rw [hwork] at hfirst
      cases answer with
      | error failure => exact hfirst
      | ok answer => exact hfirst session' rfl

theorem imp {work : Work α} (h : work.Ends setting disk Expected)
    (himp : ∀ answer disk', Expected answer disk' → Expected' answer disk') : work.Ends setting disk Expected' :=
  fun session hdisk => himp _ _ (h session hdisk)

theorem pure {answer : α} (h : Expected (.ok answer) disk) :
    (Pure.pure answer : Work α).Ends setting disk Expected := by
  rintro session rfl
  exact h

theorem fail {cause : Cause} (h : Expected (.error ⟨[], cause⟩) disk) :
    (Work.fail cause : Work α).Ends setting disk Expected := by
  rintro session rfl
  exact h

theorem report {manner : Manner} {text : Text} {Expected : Except Failure Unit → Disk → Prop}
    (h : Expected (.ok ()) disk) : (Work.report manner text).Ends setting disk Expected := by
  rintro session rfl
  exact h

theorem edit {change : Edit α} {outcome : Except Failure α} {disk' : Disk}
    (hchange : change.on disk = (outcome, disk')) (h : Expected outcome disk') :
    (Work.edit change).Ends setting disk Expected := by
  rintro session rfl
  rw [on_edit, hchange]
  exact h

/-- An edit that succeeds, and what comes after it. -/
theorem bind_edit {change : Edit α} {next : α → Work β} {answer : α} {disk' : Disk}
    {Expected : Except Failure β → Disk → Prop} (hchange : change.on disk = (.ok answer, disk'))
    (h : (next answer).Ends setting disk' Expected) :
    (Work.edit change >>= next).Ends setting disk Expected :=
  .bind (.edit hchange h)

/-- An edit that fails. -/
theorem bind_edit_error {change : Edit α} {next : α → Work β} {failure : Failure} {disk' : Disk}
    {Expected : Except Failure β → Disk → Prop}
    (hchange : change.on disk = (.error failure, disk')) (h : Expected (.error failure) disk') :
    (Work.edit change >>= next).Ends setting disk Expected :=
  .bind (.edit hchange h)

/-- An edit that may fail or succeed. -/
theorem bind_edit_cases {change : Edit α} {next : α → Work β} {Expected : Except Failure β → Disk → Prop}
    (hfail : ∀ failure disk', Expected (.error failure) disk')
    (hnext : ∀ answer disk', change.on disk = (.ok answer, disk') →
      (next answer).Ends setting disk' Expected) :
    (Work.edit change >>= next).Ends setting disk Expected := by
  cases hchange : change.on disk with
  | mk outcome disk' =>
      cases outcome with
      | error failure => exact .bind_edit_error hchange (hfail failure disk')
      | ok answer => exact .bind_edit hchange (hnext answer disk' hchange)

/-- What comes after a report. -/
theorem bind_report {manner : Manner} {text : Text} {next : Unit → Work β}
    {Expected : Except Failure β → Disk → Prop} (h : (next ()).Ends setting disk Expected) :
    (Work.report manner text >>= next).Ends setting disk Expected :=
  .bind (.report h)

/-- What comes after a report that is not always made. -/
theorem bind_report_if {manner : Manner} {text : Text} {next : Unit → Work β} {c : Prop} [Decidable c]
    {Expected : Except Failure β → Disk → Prop} (h : (next ()).Ends setting disk Expected) :
    (if c then Work.report manner text >>= next else next ()).Ends setting disk Expected := by
  split
  next => exact .bind_report h
  next => exact h

/-- What comes after a report of what patching did. -/
theorem bind_reportPatch {outcome : Patch.Outcome} {applied unchanged : Text} {next : Unit → Work β}
    {Expected : Except Failure β → Disk → Prop} (h : (next ()).Ends setting disk Expected) :
    (Command.reportPatch outcome applied unchanged >>= next).Ends setting disk Expected := by
  cases outcome with
  | applied | unchanged => exact .bind_report h

theorem tryCatch {work : Work α} {handler : Failure → Work α} (h : work.Ends setting disk fun answer disk' =>
      match answer with
      | .ok answer => Expected (.ok answer) disk'
      | .error failure => (handler failure).Ends setting disk' Expected) :
    (MonadExcept.tryCatch work handler).Ends setting disk Expected := by
  intro session hdisk
  have hfirst := h session hdisk
  rw [on_tryCatch]
  cases hwork : work.on setting session with
  | mk answer session' =>
      rw [hwork] at hfirst
      cases answer with
      | ok answer => exact hfirst
      | error failure => exact hfirst session' rfl

theorem bind_read {next : Setting → Work β} {Expected : Except Failure β → Disk → Prop}
    (h : (next setting).Ends setting disk Expected) : (read >>= next).Ends setting disk Expected :=
  h

theorem print {text : Text} {Expected : Except Failure Unit → Disk → Prop} (h : Expected (.ok ()) disk) :
    (Work.print text).Ends setting disk Expected := by
  rintro session rfl
  exact h

theorem bind_print {text : Text} {next : Unit → Work β} {Expected : Except Failure β → Disk → Prop}
    (h : (next ()).Ends setting disk Expected) : (Work.print text >>= next).Ends setting disk Expected :=
  .bind (.print h)

theorem bind_printError {text : Text} {next : Unit → Work β} {Expected : Except Failure β → Disk → Prop}
    (h : (next ()).Ends setting disk Expected) : (Work.printError text >>= next).Ends setting disk Expected := by
  rintro session rfl
  exact h { session with stderr := session.stderr ++ text } rfl

/-- Whatever comes first, if anything is as expected of what comes after it. -/
theorem bind_any {work : Work α} {next : α → Work β} {Expected : Except Failure β → Disk → Prop}
    (hfail : ∀ failure disk', Expected (.error failure) disk')
    (hnext : ∀ answer disk', (next answer).Ends setting disk' Expected) :
    (work >>= next).Ends setting disk Expected := by
  intro session _
  rw [on_bind]
  cases work.on setting session with
  | mk answer session' =>
      cases answer with
      | error failure => exact hfail failure session'.disk
      | ok answer => exact hnext answer session'.disk session' rfl

/-- A program that is run. -/
theorem launch {invocation : Invocation} {Expected : Except Failure (Except Fault Ending) → Disk → Prop}
    (h : Expected (.ok (setting.launcher invocation disk).1) (setting.launcher invocation disk).2) :
    (Work.launch invocation).Ends setting disk Expected := by
  refine .bind_read ?_
  exact .edit rfl h

/-- A question that is answered beforehand. -/
theorem confirmed {question : Text} {Expected : Except Failure Bool → Disk → Prop}
    (h : Expected (.ok true) disk) :
    (Command.confirmed true question).Ends setting disk Expected :=
  .bind_report (.pure h)

end Ends

-- ======================================================================= with answers

/-- Whether a part of a session comes to an answer and leaves a disk as expected, whatever the
session holds beside the disk and what the operator will answer. -/
def EndsWith (work : Work α) (setting : Setting) (disk : Disk) (answers : Option (List Answer))
    (Expected : Except Failure α → Disk → Prop) : Prop :=
  ∀ session, session.disk = disk → session.answers = answers →
    Expected (work.on setting session).1 (work.on setting session).2.disk

namespace EndsWith

variable {answers : Option (List Answer)}

/-- What comes after a question goes on whatever answers are left. -/
theorem bind {work : Work α} {next : α → Work β} {Expected : Except Failure β → Disk → Prop}
    (h : work.EndsWith setting disk answers fun answer disk' =>
      match answer with
      | .ok answer => (next answer).Ends setting disk' Expected
      | .error failure => Expected (.error failure) disk') :
    (work >>= next).EndsWith setting disk answers Expected := by
  intro session hdisk hanswers
  have hfirst := h session hdisk hanswers
  rw [on_bind]
  cases hwork : work.on setting session with
  | mk answer session' =>
      rw [hwork] at hfirst
      cases answer with
      | error failure => exact hfirst
      | ok answer => exact hfirst session' rfl

/-- No answer is used up by an edit. -/
theorem bind_edit {change : Edit α} {next : α → Work β} {answer : α} {disk' : Disk}
    {Expected : Except Failure β → Disk → Prop} (hchange : change.on disk = (.ok answer, disk'))
    (h : (next answer).EndsWith setting disk' answers Expected) :
    (Work.edit change >>= next).EndsWith setting disk answers Expected := by
  rintro session rfl hanswers
  rw [on_bind, on_edit, hchange]
  exact h { session with disk := disk' } rfl hanswers

theorem bind_report {manner : Manner} {text : Text} {next : Unit → Work β}
    {Expected : Except Failure β → Disk → Prop} (h : (next ()).EndsWith setting disk answers Expected) :
    (Work.report manner text >>= next).EndsWith setting disk answers Expected := by
  rintro session rfl hanswers
  exact h { session with reports := session.reports ++ [⟨manner, text⟩] } rfl hanswers

end EndsWith

end SiteScaffold.Work

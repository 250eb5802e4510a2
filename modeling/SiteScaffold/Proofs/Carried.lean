/-
Where parts of a session carry a disk. A part carries disks of one kind to disks of another
if it leaves one of those with its answer, and if it fails, one on which still holds what
always does (`Work.Carries`). Of a part that is made of several, the first ones carry to
where the next ones start (`Carries.bind`); a part that leaves the disk alone may come
anywhere (`Carries.bind_still`).
-/
import SiteScaffold.Proofs.Refusal

namespace SiteScaffold.Work

variable {α β : Type} {setting : Setting} {Always Before : Disk → Prop} {After Mid : α → Disk → Prop}
  {work : Work α}

/-- Whether a part of a session takes each disk of a kind to one that suits its answer, and
leaves what always holds if it fails. -/
def Carries (setting : Setting) (Always Before : Disk → Prop) (work : Work α) (After : α → Disk → Prop) :
    Prop :=
  ∀ disk, Before disk → work.Ends setting disk fun answer disk' =>
    match answer with
    | .ok answer => After answer disk'
    | .error _ => Always disk'

namespace Carries

theorem bind {next : α → Work β} {After : β → Disk → Prop} (h : work.Carries setting Always Before Mid)
    (hnext : ∀ answer, (next answer).Carries setting Always (Mid answer) After) :
    (work >>= next).Carries setting Always Before After := by
  intro disk hbefore
  refine .bind fun session hdisk => ?_
  have hfirst := h disk hbefore session hdisk
  cases hwork : (work.on setting session).1 with
  | ok answer =>
      rw [hwork] at hfirst
      exact hnext answer _ hfirst
  | error failure =>
      rw [hwork] at hfirst
      exact hfirst

/-- Whatever the answer, what comes next starts from the same kind of disks. -/
theorem andThen {Between : Disk → Prop} {next : α → Work β} {After : β → Disk → Prop}
    (h : work.Carries setting Always Before fun _ => Between)
    (hnext : ∀ answer, (next answer).Carries setting Always Between After) :
    (work >>= next).Carries setting Always Before After :=
  .bind h hnext

theorem of_still (h : Still setting setting.launcher work work) (hbefore : ∀ disk, Before disk → Always disk) :
    work.Carries setting Always Before fun _ => Before := by
  rintro disk hholds session rfl
  have hdisk := (h session trivial).1
  cases hwork : (work.on setting session).1 with
  | ok answer =>
      show Before _
      rw [hdisk]
      exact hholds
  | error failure =>
      show Always _
      rw [hdisk]
      exact hbefore _ hholds

/-- What comes after a part that leaves the disk alone starts from the same disks. -/
theorem bind_still {next : α → Work β} {After : β → Disk → Prop}
    (h : Still setting setting.launcher work work) (hbefore : ∀ disk, Before disk → Always disk)
    (hnext : ∀ answer, (next answer).Carries setting Always Before After) :
    (work >>= next).Carries setting Always Before After :=
  .bind (of_still h hbefore) hnext

theorem pure {answer : α} (h : ∀ disk, Before disk → After answer disk) :
    (Pure.pure answer : Work α).Carries setting Always Before After :=
  fun disk hbefore => .pure (h disk hbefore)

theorem fail {cause : Cause} (h : ∀ disk, Before disk → Always disk) :
    (Work.fail cause : Work α).Carries setting Always Before After :=
  fun disk hbefore => .fail (h disk hbefore)

/-- Nothing comes after a failure. -/
theorem fail_bind {cause : Cause} {next : α → Work β} {After : β → Disk → Prop}
    (h : ∀ disk, Before disk → Always disk) :
    ((Work.fail cause : Work α) >>= next).Carries setting Always Before After :=
  fun disk hbefore => .fail (h disk hbefore)

theorem throw {failure : Failure} (h : ∀ disk, Before disk → Always disk) :
    (MonadExcept.throw failure : Work α).Carries setting Always Before After := by
  rintro disk hbefore session rfl
  exact h _ hbefore

theorem ite {yes no : Work α} {c : Prop} [Decidable c] (hyes : c → yes.Carries setting Always Before After)
    (hno : ¬ c → no.Carries setting Always Before After) :
    (if c then yes else no).Carries setting Always Before After := by
  split
  next hc => exact hyes hc
  next hc => exact hno hc

/-- What is done under a condition only. -/
theorem optional {next : Unit → Work β} {work : Work Unit} {After : β → Disk → Prop} {c : Prop} [Decidable c]
    (h : work.Carries setting Always Before fun _ => Before)
    (hnext : (next ()).Carries setting Always Before After) :
    (if c then work >>= next else next ()).Carries setting Always Before After :=
  .ite (fun _ => .bind h fun _ => hnext) fun _ => hnext

theorem edit {change : Edit α} (h : ∀ disk, Before disk → ∀ outcome disk', change.on disk = (outcome, disk') →
      match outcome with
      | .ok answer => After answer disk'
      | .error _ => Always disk') :
    (Work.edit change).Carries setting Always Before After :=
  fun disk hbefore => .edit rfl (h disk hbefore _ _ rfl)

theorem edit_keeps {change : Edit α} (h : ∀ disk, Always disk → Always (change.on disk).2) :
    (Work.edit change).Carries setting Always Always fun _ => Always := by
  refine .edit fun disk halways outcome disk' hchange => ?_
  have hafter := h disk halways
  rw [hchange] at hafter
  cases outcome with
  | ok answer | error failure => exact hafter

theorem report {manner : Manner} {text : Text} :
    (Work.report manner text).Carries setting Always Before fun _ => Before :=
  fun _ hbefore => .report hbefore

theorem map {f : α → β} {After : β → Disk → Prop}
    (h : work.Carries setting Always Before fun answer => After (f answer)) :
    (f <$> work).Carries setting Always Before After :=
  .bind h fun _ => .pure fun _ => id

/-- What is chosen is one of the items. -/
theorem chooses {question : Text} {items : List Text} (hbefore : ∀ disk, Before disk → Always disk) :
    (Work.chooses question items).Carries setting Always Before fun chosen disk =>
      (∀ item ∈ chosen, item ∈ items) ∧ Before disk := by
  apply Carries.bind_still (still_ask question) hbefore
  intro answer
  cases answer with
  | choose index => exact .pure fun _ h => ⟨fun item hitem => List.mem_of_getElem? hitem, h⟩
  | confirm yes | escape => exact .pure fun _ h => ⟨by simp, h⟩

/-- What takes care of a failure starts where the failure has left the disk. -/
theorem tryCatch {handler : Failure → Work α} (h : work.Carries setting Always Before After)
    (hhandler : ∀ failure, (handler failure).Carries setting Always Always After) :
    (MonadExcept.tryCatch work handler).Carries setting Always Before After := by
  intro disk hbefore
  refine .tryCatch fun session hdisk => ?_
  have hfirst := h disk hbefore session hdisk
  cases hwork : (work.on setting session).1 with
  | ok answer =>
      rw [hwork] at hfirst
      exact hfirst
  | error failure =>
      rw [hwork] at hfirst
      exact hhandler failure _ hfirst

/-- What holds whatever the disk. -/
theorem of_and {c : Prop} (h : c → work.Carries setting Always Before After) :
    work.Carries setting Always (fun disk => c ∧ Before disk) After :=
  fun disk hholds => h hholds.1 disk hholds.2

theorem weaken {Before' : Disk → Prop} {After' : α → Disk → Prop} (h : work.Carries setting Always Before After)
    (hbefore : ∀ disk, Before' disk → Before disk) (hafter : ∀ answer disk, After answer disk → After' answer disk) :
    work.Carries setting Always Before' After' := by
  intro disk hholds session hdisk
  have hends := h disk (hbefore disk hholds) session hdisk
  cases hwork : (work.on setting session).1 with
  | ok answer =>
      rw [hwork] at hends
      exact hafter answer _ hends
  | error failure =>
      rw [hwork] at hends
      exact hends

/-- What a part keeps that takes what always holds to it. -/
theorem keeps (h : work.Carries setting Always Always fun _ => Always) (session : Session)
    (halways : Always session.disk) : Always (work.on setting session).2.disk := by
  have hends := h session.disk halways session rfl
  cases hwork : (work.on setting session).1 with
  | ok answer | error failure =>
      rw [hwork] at hends
      exact hends

end Carries

/-- A part that leaves the disk alone, by the answer that it comes to. -/
theorem EndsWith.of_still {answers : Option (List Answer)} {disk : Disk} {answer : α}
    {Expected : Except Failure α → Disk → Prop} (hstill : Still setting setting.launcher work work)
    (h : work.EndsWith setting disk answers fun outcome _ => outcome = .ok answer) (hexpected : Expected (.ok answer) disk) :
    work.EndsWith setting disk answers Expected := by
  intro session hdisk hanswers
  rw [h session hdisk hanswers, (hstill session trivial).1, hdisk]
  exact hexpected

end SiteScaffold.Work

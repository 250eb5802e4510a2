/-
What is refused, and what a refusal leaves alone. A part of a session spares the disk if it
has left it as it was whenever it ends in a certain way, and has run no program but those
that tell about the system (`Work.Spares`): with another launcher that answers the same
probes, it would have come to the same. Of a part that is made of several, the first ones
have to spare the disk however they end (`Spares.bind`), up to the one after which nothing
refuses the command any more (`Spares.bind_late`).
-/
import SiteScaffold.Proofs.Session

namespace SiteScaffold

variable {α β : Type} {command : Command}

-- ========================================================================== refusals

/-- Whether a cause refuses a command. The walks of a build go through what it has made, so
one that fails comes too late to refuse it. -/
def Cause.refuses (command : Command) : Cause → Bool
  | usage _ | notAProject _ | precondition _ | serverNotRunning _ | alreadyExists _ _
  | conflict _ | notFound _ _ | noTerminal | interrupted => true
  | walk _ _ =>
    match command with
    | .build _ => false
    | _ => true
  | directiveConflict _ _ | anchorMissing _ _ | toolFailed _ _ | system _ | other _ => false

/-- Whether a part of a command ends in a refusal, by a failure or by one of the answers that
decline. -/
def Refused (command : Command) (declines : α → Prop) : Except Failure α → Prop
  | .ok answer => declines answer
  | .error failure => failure.cause.refuses command = true

instance (command : Command) (declines : α → Prop) [DecidablePred declines] :
    DecidablePred (Refused command declines)
  | .ok answer => inferInstanceAs (Decidable (declines answer))
  | .error failure => inferInstanceAs (Decidable (failure.cause.refuses command = true))

/-- An invocation that asks the system whether a program is there, or what a process runs. -/
inductive Invocation.IsProbe : Invocation → Prop
  | which (program folder : Text) : IsProbe ⟨"which", [program], folder⟩
  | ps (pid : Nat) (folder : Text) : IsProbe ⟨"ps", ["-p", Text.ofNat pid, "-o", "args="], folder⟩

/-- Whether probes leave every disk alone. -/
def Launcher.ProbesQuietly (launcher : Launcher) : Prop :=
  ∀ invocation disk, invocation.IsProbe → (launcher invocation disk).2 = disk

/-- Whether another launcher answers the same probes in the same way. -/
def Launcher.ProbesLike (launcher launcher' : Launcher) : Prop :=
  ∀ invocation, invocation.IsProbe → launcher' invocation = launcher invocation

-- ============================================================================= edits

namespace Edit

variable {edit edit' : Edit α} {next next' : α → Edit β} {When : Except Failure β → Prop}

/-- Whether an edit, whenever it ends in a way, has left the disk alone and comes to the same
as another one. -/
def Spares (When : Except Failure α → Prop) (edit edit' : Edit α) : Prop :=
  ∀ disk, When (edit.on disk).1 → (edit.on disk).2 = disk ∧ edit'.on disk = edit.on disk

/-- Whether it does so however it ends. -/
abbrev Still (edit edit' : Edit α) : Prop := Spares (fun _ => True) edit edit'

/-- Whether an edit fails, if it does, of nothing that refuses a command. -/
def Late (command : Command) (edit : Edit α) : Prop :=
  ∀ disk failure, (edit.on disk).1 = .error failure → failure.cause.refuses command = false

theorem on_bind (edit : Edit α) (next : α → Edit β) (disk : Disk) :
    (edit >>= next).on disk = match edit.on disk with
      | (.ok answer, disk') => (next answer).on disk'
      | (.error failure, disk') => (.error failure, disk') := by
  cases hedit : edit.on disk with
  | mk outcome disk' =>
      cases outcome with
      | ok answer => exact on_bind_ok hedit
      | error failure => exact on_bind_error hedit

namespace Spares

theorem of_still {When : Except Failure α → Prop} (h : Still edit edit') : Spares When edit edit' :=
  fun disk _ => h disk trivial

theorem bind (h : Still edit edit') (hnext : ∀ answer, Spares When (next answer) (next' answer)) :
    Spares When (edit >>= next) (edit' >>= next') := by
  intro disk hwhen
  obtain ⟨hdisk, hsame⟩ := h disk trivial
  rw [on_bind] at hwhen ⊢
  rw [on_bind, hsame]
  cases hedit : edit.on disk with
  | mk outcome disk' =>
      rw [hedit] at hdisk hwhen
      obtain rfl : disk' = disk := hdisk
      cases outcome with
      | ok answer => exact hnext answer disk' hwhen
      | error failure => exact ⟨rfl, rfl⟩

theorem ite {When : Except Failure α → Prop} {yes yes' no no' : Edit α} {c : Prop} [Decidable c]
    (hyes : Spares When yes yes') (hno : Spares When no no') :
    Spares When (if c then yes else no) (if c then yes' else no') := by
  split
  · exact hyes
  · exact hno

theorem of_late {declines : α → Prop} (h : edit.Late command) (hdeclines : ∀ answer, ¬ declines answer) :
    Spares (Refused command declines) edit edit' := by
  intro disk hrefused
  cases houtcome : (edit.on disk).1 with
  | ok answer =>
      rw [houtcome] at hrefused
      exact absurd hrefused (hdeclines answer)
  | error failure =>
      rw [houtcome] at hrefused
      have hcause : failure.cause.refuses command = true := hrefused
      rw [h disk failure houtcome] at hcause
      cases hcause

end Spares

section Still

theorem still_pure (answer : α) : Still (pure answer) (pure answer) := fun _ _ => ⟨rfl, rfl⟩

theorem still_fail (cause : Cause) : Still (fail cause : Edit α) (fail cause) := fun _ _ => ⟨rfl, rfl⟩

theorem still_get : Still get get := fun _ _ => ⟨rfl, rfl⟩

theorem still_ask (question : Disk → α) : Still (ask question) (ask question) := fun _ _ => ⟨rfl, rfl⟩

theorem still_look (doing : Text) (question : Disk → Except Fault α) :
    Still (look doing question) (look doing question) := by
  intro disk _
  cases hquestion : question disk with
  | ok answer =>
      rw [on_look hquestion]
      exact ⟨rfl, rfl⟩
  | error fault =>
      rw [on_look_error hquestion]
      exact ⟨rfl, rfl⟩

theorem still_walk (folder : Text) : Still (walk folder) (walk folder) := by
  intro disk _
  cases hwalk : disk.walk folder with
  | ok visits =>
      rw [on_walk hwalk]
      exact ⟨rfl, rfl⟩
  | error fault =>
      rw [on_walk_error hwalk]
      exact ⟨rfl, rfl⟩

theorem still_during_fail (doing : Text) (cause : Cause) :
    Still (during doing (fail cause : Edit α)) (during doing (fail cause)) :=
  fun _ _ => ⟨rfl, rfl⟩

theorem still_mapM {step step' : α → Edit β} (xs : List α) (h : ∀ x, Still (step x) (step' x)) :
    Still (xs.mapM step) (xs.mapM step') := by
  induction xs with
  | nil => exact still_pure []
  | cons x xs ih =>
      rw [List.mapM_cons, List.mapM_cons]
      exact .bind (h x) fun first => .bind ih fun rest => still_pure _

/-- A probe. -/
theorem still_launch {launcher launcher' : Launcher} (hquiet : launcher.ProbesQuietly)
    (hlike : launcher.ProbesLike launcher') {invocation : Invocation} (hprobe : invocation.IsProbe) :
    Still (Tool.launch launcher invocation) (Tool.launch launcher' invocation) := by
  intro disk _
  unfold Tool.launch
  rw [on_bind_ok on_get, on_bind_ok on_get, hlike invocation hprobe]
  exact ⟨hquiet invocation disk hprobe, rfl⟩

end Still

namespace Late

variable {doing path folder : Text}

theorem pure (answer : α) : (Pure.pure answer : Edit α).Late command := by
  intro disk failure h
  cases h

theorem throw {failure : Failure} (h : failure.cause.refuses command = false) :
    (MonadExcept.throw failure : Edit α).Late command := by
  intro disk failure' heq
  cases heq
  exact h

theorem get : (MonadState.get : Edit Disk).Late command := by
  intro disk failure h
  cases h

theorem set (disk : Disk) : (MonadStateOf.set disk : Edit Unit).Late command := by
  intro disk failure h
  cases h

theorem bind (h : edit.Late command) (hnext : ∀ answer, (next answer).Late command) :
    (edit >>= next).Late command := by
  intro disk failure hfails
  rw [on_bind] at hfails
  cases hedit : edit.on disk with
  | mk outcome disk' =>
      rw [hedit] at hfails
      cases outcome with
      | ok answer => exact hnext answer disk' failure hfails
      | error failure' =>
          cases hfails
          exact h disk failure (by rw [hedit])

theorem ite {yes no : Edit α} {c : Prop} [Decidable c] (hyes : yes.Late command) (hno : no.Late command) :
    (if c then yes else no).Late command := by
  split
  · exact hyes
  · exact hno

theorem ask (question : Disk → α) : (Edit.ask question).Late command := .bind .get fun _ => .pure _

theorem look (question : Disk → Except Fault α) : (Edit.look doing question).Late command := by
  apply Late.bind .get
  intro disk
  cases question disk with
  | ok answer => exact .pure answer
  | error fault => exact .throw rfl

theorem change (step : Disk → Except Fault Disk) : (Edit.change doing step).Late command := by
  apply Late.bind .get
  intro disk
  cases step disk with
  | ok disk' => exact .set disk'
  | error fault => exact .throw rfl

/-- What is done about a failure has to come too late as well. -/
theorem tryCatch {handler : Failure → Edit α} (h : edit.Late command)
    (hhandler : ∀ failure, failure.cause.refuses command = false → (handler failure).Late command) :
    (MonadExcept.tryCatch edit handler).Late command := by
  intro disk failure hfails
  rw [on_tryCatch] at hfails
  cases hedit : edit.on disk with
  | mk outcome disk' =>
      rw [hedit] at hfails
      cases outcome with
      | ok answer => cases hfails
      | error failure' => exact hhandler failure' (h disk failure' (by rw [hedit])) disk' failure hfails

theorem makeFolders : (Edit.makeFolders folder).Late command := by
  intro disk failure h
  cases hmake : disk.makeFolders folder with
  | mk outcome made =>
      cases outcome with
      | ok =>
          rw [on_makeFolders hmake] at h
          cases h
      | error fault =>
          rw [on_makeFolders_error hmake] at h
          cases h
          rfl

theorem removeTree : (Edit.removeTree doing folder).Late command := by
  intro disk failure h
  cases hremove : disk.removeTree folder with
  | mk outcome removed =>
      cases outcome with
      | ok =>
          rw [on_removeTree hremove] at h
          cases h
      | error fault =>
          rw [on_removeTree_error hremove] at h
          cases h
          rfl

/-- A walk comes too late for a build only. -/
theorem walk {zip : Bool} : (Edit.walk folder).Late (.build zip) := by
  apply Late.bind .get
  intro disk
  cases disk.walk folder with
  | ok visits => exact .pure visits
  | error fault => exact .throw rfl

theorem mapM {step : α → Edit β} (xs : List α) (h : ∀ x, (step x).Late command) :
    (xs.mapM step).Late command := by
  induction xs with
  | nil => exact .pure []
  | cons x xs ih =>
      rw [List.mapM_cons]
      exact .bind (h x) fun first => .bind ih fun rest => .pure _

theorem forM {step : α → Edit Unit} (xs : List α) (h : ∀ x, (step x).Late command) :
    (xs.forM step).Late command := by
  induction xs with
  | nil => exact .pure ()
  | cons x xs ih => exact .bind (h x) fun _ => ih

end Late

end Edit

-- ================================================================= parts of a session

namespace Work

variable {setting : Setting} {launcher : Launcher} {work work' : Work α} {next next' : α → Work β}
  {declines : β → Prop}

/-- Whether a part of a session, whenever it ends in a way, has left the disk alone and comes
to the same as another part in which programs are run in another way. -/
def Spares (setting : Setting) (launcher : Launcher) (When : Except Failure α → Prop)
    (work work' : Work α) : Prop :=
  ∀ session, When (work.on setting session).1 →
    (work.on setting session).2.disk = session.disk
      ∧ work'.on { setting with launcher } session = work.on setting session

/-- Whether it does so however it ends. -/
abbrev Still (setting : Setting) (launcher : Launcher) (work work' : Work α) : Prop :=
  Spares setting launcher (fun _ => True) work work'

/-- Whether a part of a command never refuses it. -/
def Late (command : Command) (declines : α → Prop) (setting : Setting) (work : Work α) : Prop :=
  ∀ disk, work.Ends setting disk fun answer _ => ¬ Refused command declines answer

namespace Spares

variable {When : Except Failure β → Prop}

theorem of_still {When : Except Failure α → Prop} (h : Still setting launcher work work') :
    Spares setting launcher When work work' :=
  fun session _ => h session trivial

theorem of_late {declines : α → Prop} (h : work.Late command declines setting) :
    Spares setting launcher (Refused command declines) work work' :=
  fun session hrefused => absurd hrefused (h session.disk session rfl)

/-- First what spares the disk in any case. -/
theorem bind (h : Still setting launcher work work')
    (hnext : ∀ answer, Spares setting launcher When (next answer) (next' answer)) :
    Spares setting launcher When (work >>= next) (work' >>= next') := by
  intro session hwhen
  obtain ⟨hdisk, hsame⟩ := h session trivial
  rw [on_bind] at hwhen ⊢
  rw [on_bind, hsame]
  cases hwork : work.on setting session with
  | mk outcome session' =>
      rw [hwork] at hdisk hwhen
      cases outcome with
      | error failure => exact ⟨hdisk, rfl⟩
      | ok answer =>
          obtain ⟨hdisk', hsame'⟩ := hnext answer session' hwhen
          exact ⟨hdisk'.trans hdisk, hsame'⟩

/-- First what spares the disk if it refuses the command, then what does not refuse it. -/
theorem bind_late (h : Spares setting launcher (Refused command fun _ => False) work work')
    (hnext : ∀ answer, (next answer).Late command declines setting) :
    Spares setting launcher (Refused command declines) (work >>= next) (work' >>= next') := by
  intro session hrefused
  have hfirst := h session
  rw [on_bind] at hrefused ⊢
  rw [on_bind]
  cases hwork : work.on setting session with
  | mk outcome session' =>
      rw [hwork] at hfirst hrefused
      cases outcome with
      | ok answer => exact absurd hrefused (hnext answer session'.disk session' rfl)
      | error failure =>
          obtain ⟨hdisk, hsame⟩ := hfirst hrefused
          rw [hsame]
          exact ⟨hdisk, rfl⟩

/-- What reads the setting finds the other launcher in the other run. -/
theorem bind_read {next next' : Setting → Work β}
    (h : Spares setting launcher When (next setting) (next' { setting with launcher })) :
    Spares setting launcher When (read >>= next) (read >>= next') := h

/-- Nothing comes after a failure. -/
theorem fail_bind (cause : Cause) :
    Spares setting launcher When ((fail cause : Work α) >>= next) (fail cause >>= next') :=
  fun _ _ => ⟨rfl, rfl⟩

theorem ite {When : Except Failure α → Prop} {yes yes' no no' : Work α} {c : Prop} [Decidable c]
    (hyes : Spares setting launcher When yes yes') (hno : Spares setting launcher When no no') :
    Spares setting launcher When (if c then yes else no) (if c then yes' else no') := by
  split
  · exact hyes
  · exact hno

theorem edit {change change' : Edit α} {When : Except Failure α → Prop} (h : change.Spares When change') :
    Spares setting launcher When (Work.edit change) (Work.edit change') := by
  intro session hwhen
  rw [on_edit] at hwhen ⊢
  obtain ⟨hdisk, hsame⟩ := h session.disk hwhen
  refine ⟨hdisk, ?_⟩
  rw [on_edit, hsame]

/-- A failure may be reported before it goes on. -/
theorem tryCatch {handler : Failure → Work α}
    (h : Spares setting launcher (Refused command fun _ => False) work work')
    (hstill : ∀ failure, Still setting launcher (handler failure) (handler failure))
    (hfails : ∀ failure session, ((handler failure).on setting session).1 = .error failure) :
    Spares setting launcher (Refused command fun _ => False) (MonadExcept.tryCatch work handler)
      (MonadExcept.tryCatch work' handler) := by
  intro session hrefused
  have hfirst := h session
  rw [on_tryCatch] at hrefused ⊢
  rw [on_tryCatch]
  cases hwork : work.on setting session with
  | mk outcome session' =>
      rw [hwork] at hfirst hrefused
      cases outcome with
      | ok answer => exact absurd hrefused id
      | error failure =>
          have hcause : Refused command _ ((handler failure).on setting session').1 := hrefused
          rw [hfails] at hcause
          obtain ⟨hdisk, hsame⟩ := hfirst hcause
          obtain ⟨hdisk', hsame'⟩ := hstill failure session' trivial
          rw [hsame]
          exact ⟨hdisk'.trans hdisk, hsame'⟩

end Spares

section Still

theorem still_pure (answer : α) : Still setting launcher (pure answer) (pure answer) :=
  fun _ _ => ⟨rfl, rfl⟩

theorem still_fail (cause : Cause) : Still setting launcher (fail cause : Work α) (fail cause) :=
  fun _ _ => ⟨rfl, rfl⟩

theorem still_report (manner : Manner) (text : Text) :
    Still setting launcher (report manner text) (report manner text) :=
  fun _ _ => ⟨rfl, rfl⟩

theorem still_openAddress (address : Text) :
    Still setting launcher (openAddress address) (openAddress address) :=
  fun _ _ => ⟨rfl, rfl⟩

/-- A question changes what is left of the answers only. -/
theorem still_ask (question : Text) : Still setting launcher (ask question) (ask question) := by
  intro session _
  obtain ⟨disk, answers, reports, stdout, stderr, opened⟩ := session
  cases answers with
  | none => exact ⟨rfl, rfl⟩
  | some answers =>
      cases answers with
      | nil => exact ⟨rfl, rfl⟩
      | cons answer answers =>
          cases answer with
          | confirm yes | choose index | escape => exact ⟨rfl, rfl⟩

theorem still_agrees (question : Text) : Still setting launcher (agrees question) (agrees question) := by
  apply Spares.bind (still_ask question)
  intro answer
  cases answer with
  | confirm yes => exact still_pure yes
  | choose index | escape => exact still_pure false

theorem still_chooses (question : Text) (items : List Text) :
    Still setting launcher (chooses question items) (chooses question items) := by
  apply Spares.bind (still_ask question)
  intro answer
  cases answer with
  | choose index => exact still_pure _
  | confirm yes | escape => exact still_pure none

end Still

namespace Ends

variable {disk : Disk}

theorem edit_late {change : Edit α} (h : ∀ failure, (change.on disk).1 = .error failure →
      failure.cause.refuses command = false) :
    (Work.edit change).Ends setting disk fun answer _ => ¬ Refused command (fun _ => False) answer := by
  cases hchange : change.on disk with
  | mk outcome disk' =>
      refine .edit hchange ?_
      cases outcome with
      | ok answer => exact id
      | error failure =>
          have hcause := h failure (by rw [hchange])
          simp [Refused, hcause]

theorem bind_late
    (h : work.Ends setting disk fun answer _ => ¬ Refused command (fun _ => False) answer)
    (hnext : ∀ answer, (next answer).Late command declines setting) :
    (work >>= next).Ends setting disk fun answer _ => ¬ Refused command declines answer := by
  refine .bind fun session hdisk => ?_
  have hfirst := h session hdisk
  cases hwork : (work.on setting session).1 with
  | ok answer => exact hnext answer _
  | error failure =>
      rw [hwork] at hfirst
      exact hfirst

end Ends

namespace Late

variable {declines : α → Prop} {setting : Setting}

theorem pure {answer : α} (h : ¬ declines answer) : (Pure.pure answer : Work α).Late command declines setting :=
  fun _ => .pure h

theorem throw {failure : Failure} (h : failure.cause.refuses command = false) :
    (MonadExcept.throw failure : Work α).Late command declines setting := by
  intro disk session hdisk hrefused
  have hcause : failure.cause.refuses command = true := hrefused
  rw [h] at hcause
  cases hcause

theorem fail {cause : Cause} (h : cause.refuses command = false) :
    (Work.fail cause : Work α).Late command declines setting := .throw h

theorem report (manner : Manner) (text : Text) :
    (Work.report manner text).Late command (fun _ => False) setting :=
  fun _ => .report id

theorem edit {change : Edit α} (h : change.Late command) :
    (Work.edit change).Late command (fun _ => False) setting :=
  fun disk => .edit_late (h disk)

theorem bind {declines : β → Prop} (h : work.Late command (fun _ => False) setting)
    (hnext : ∀ answer, (next answer).Late command declines setting) :
    (work >>= next).Late command declines setting :=
  fun disk => .bind_late (h disk) hnext

theorem map {f : α → β} (h : work.Late command (fun _ => False) setting) :
    (f <$> work).Late command (fun _ => False) setting := .bind h fun _ => .pure id

theorem tryCatch {handler : Failure → Work α} (h : work.Late command (fun _ => False) setting)
    (hhandler : ∀ failure, failure.cause.refuses command = false →
      (handler failure).Late command declines setting)
    (hanswer : ∀ answer, ¬ declines answer) :
    (MonadExcept.tryCatch work handler).Late command declines setting := by
  intro disk session hdisk
  have hfirst := h disk session hdisk
  rw [on_tryCatch]
  cases hwork : work.on setting session with
  | mk outcome session' =>
      rw [hwork] at hfirst
      cases outcome with
      | ok answer => exact hanswer answer
      | error failure =>
          have hcause : failure.cause.refuses command = false := by simpa [Refused] using hfirst
          exact hhandler failure hcause session'.disk session' rfl

theorem ite {yes no : Work α} {c : Prop} [Decidable c] (hyes : yes.Late command declines setting)
    (hno : no.Late command declines setting) : (if c then yes else no).Late command declines setting := by
  split
  · exact hyes
  · exact hno

/-- What is done under a condition only. -/
theorem optional {declines : β → Prop} {next : Unit → Work β} {work : Work Unit} {c : Prop} [Decidable c]
    (h : work.Late command (fun _ => False) setting) (hnext : (next ()).Late command declines setting) :
    (if c then work >>= next else next ()).Late command declines setting :=
  .ite (.bind h fun _ => hnext) hnext

end Late

end Work

end SiteScaffold

/-
What edits come to, step by step. An edit goes on with what its first step answers, on
the disk that the step leaves, or fails with it (`on_bind_ok`, `on_bind_error`); steps that
meet a fault of the system fail for that cause (`Failure.OfSystem`).
-/
import SiteScaffold.Edit
import SiteScaffold.Proofs.Disk.TextFile

namespace SiteScaffold

variable {disk disk' : Disk}

/-- Whether the system is the cause. -/
def Cause.isSystem : Cause → Bool
  | system _ => true
  | _ => false

/-- Whether the system is the cause of a failure. -/
def Failure.OfSystem (failure : Failure) : Prop := failure.cause.isSystem = true

instance (failure : Failure) : Decidable failure.OfSystem :=
  inferInstanceAs (Decidable (failure.cause.isSystem = true))

namespace Edit

variable {α β : Type} {answer : α} {failure : Failure} {fault : Fault} {doing path : Text} {k : Key}
  {t : Text}

theorem on_bind_ok {edit : Edit α} {next : α → Edit β} (h : edit.on disk = (.ok answer, disk')) :
    (edit >>= next).on disk = (next answer).on disk' := by
  unfold on at h ⊢
  simp only [bind, ExceptT.bind, StateT.bind, ExceptT.mk]
  rw [h]
  rfl

theorem on_bind_error {edit : Edit α} {next : α → Edit β}
    (h : edit.on disk = (.error failure, disk')) :
    (edit >>= next).on disk = (.error failure, disk') := by
  unfold on at h ⊢
  simp only [bind, ExceptT.bind, StateT.bind, ExceptT.mk]
  rw [h]
  rfl

/-- What takes care of a failure goes on from the disk that the failure left. -/
theorem on_tryCatch (edit : Edit α) (handler : Failure → Edit α) (disk : Disk) :
    (tryCatch edit handler).on disk = match edit.on disk with
      | (.ok answer, disk') => (.ok answer, disk')
      | (.error failure, disk') => (handler failure).on disk' := by
  show (_ : Except Failure α × Disk) = _
  unfold on
  simp only [tryCatch, tryCatchThe, MonadExceptOf.tryCatch, ExceptT.tryCatch, ExceptT.mk, Bind.bind,
    StateT.bind]
  cases edit disk with
  | mk outcome disk' =>
      cases outcome with
      | ok answer => rfl
      | error failure => rfl

theorem on_get : (get : Edit Disk).on disk = (.ok disk, disk) := rfl

theorem on_ask (question : Disk → α) : (ask question).on disk = (.ok (question disk), disk) := rfl

theorem on_look {question : Disk → Except Fault α} (h : question disk = .ok answer) :
    (look doing question).on disk = (.ok answer, disk) := by
  unfold look
  rw [on_bind_ok on_get, h]
  rfl

theorem on_look_error {question : Disk → Except Fault α} (h : question disk = .error fault) :
    (look doing question).on disk = (.error ⟨[doing], .system fault⟩, disk) := by
  unfold look
  rw [on_bind_ok on_get, h]
  rfl

theorem on_change {step : Disk → Except Fault Disk} (h : step disk = .ok disk') :
    (change doing step).on disk = (.ok (), disk') := by
  unfold change
  rw [on_bind_ok on_get, h]
  rfl

theorem on_change_error {step : Disk → Except Fault Disk} (h : step disk = .error fault) :
    (change doing step).on disk = (.error ⟨[doing], .system fault⟩, disk) := by
  unfold change
  rw [on_bind_ok on_get, h]
  rfl

theorem on_makeFolders {folder : Text} (h : disk.makeFolders folder = (.ok (), disk')) :
    (makeFolders folder).on disk = (.ok (), disk') := by
  unfold makeFolders
  rw [on_bind_ok on_get, h]
  rfl

theorem on_makeFolders_error {folder : Text} (h : disk.makeFolders folder = (.error fault, disk')) :
    (makeFolders folder).on disk
      = (.error ⟨["Failed to create directory: " ++ folder], .system fault⟩, disk') := by
  unfold makeFolders
  rw [on_bind_ok on_get, h]
  rfl

theorem on_removeTree {folder : Text} (h : disk.removeTree folder = (.ok (), disk')) :
    (removeTree doing folder).on disk = (.ok (), disk') := by
  unfold removeTree
  rw [on_bind_ok on_get, h]
  rfl

theorem on_removeTree_error {folder : Text} (h : disk.removeTree folder = (.error fault, disk')) :
    (removeTree doing folder).on disk = (.error ⟨[doing], .system fault⟩, disk') := by
  unfold removeTree
  rw [on_bind_ok on_get, h]
  rfl

theorem on_walk {folder : Text} {visits : List Disk.Visit} (h : disk.walk folder = .ok visits) :
    (walk folder).on disk = (.ok visits, disk) := by
  unfold walk
  rw [on_bind_ok on_get, h]
  rfl

theorem on_walk_error {folder : Text} (h : disk.walk folder = .error fault) :
    (walk folder).on disk = (.error ⟨["Failed to scan " ++ folder], .walk folder fault⟩, disk) := by
  unfold walk
  rw [on_bind_ok on_get, h]
  rfl

theorem on_readText (h : disk.HoldsText path k t) : (readText path).on disk = (.ok t, disk) :=
  on_look (Disk.readText_eq_ok_iff.2 ⟨k, h⟩)

theorem on_readText_error (h : disk.readText path = .error fault) :
    (readText path).on disk = (.error ⟨["Failed to read " ++ path], .system fault⟩, disk) :=
  on_look_error h

theorem on_writeText (h : disk.write path (.text t) = .ok disk') :
    (writeText path t).on disk = (.ok (), disk') :=
  on_change h

-- ================================================================ read backwards

theorem on_of_fst {edit : Edit α} (h : (edit.on disk).1 = .ok answer) :
    edit.on disk = (.ok answer, (edit.on disk).2) := by
  rw [← h]

/-- What goes through did so step by step. -/
theorem on_bind_eq_ok {edit : Edit α} {next : α → Edit β} {last : β} {disk'' : Disk} :
    (edit >>= next).on disk = (.ok last, disk'')
      ↔ ∃ first disk', edit.on disk = (.ok first, disk') ∧ (next first).on disk' = (.ok last, disk'') := by
  constructor
  · intro h
    cases hedit : edit.on disk with
    | mk outcome disk' =>
        cases outcome with
        | error failure =>
            rw [on_bind_error hedit] at h
            cases h
        | ok first =>
            rw [on_bind_ok hedit] at h
            exact ⟨first, disk', rfl, h⟩
  · rintro ⟨first, disk', hedit, hnext⟩
    rw [on_bind_ok hedit]
    exact hnext

theorem on_look_eq_ok {question : Disk → Except Fault α} :
    (look doing question).on disk = (.ok answer, disk') ↔ question disk = .ok answer ∧ disk' = disk := by
  refine ⟨fun h => ?_, ?_⟩
  · cases hquestion : question disk with
    | error fault =>
        rw [on_look_error hquestion] at h
        cases h
    | ok found =>
        rw [on_look hquestion] at h
        cases h
        exact ⟨rfl, rfl⟩
  · rintro ⟨hquestion, rfl⟩
    exact on_look hquestion

theorem on_change_eq_ok {step : Disk → Except Fault Disk} :
    (change doing step).on disk = (.ok (), disk') ↔ step disk = .ok disk' := by
  refine ⟨fun h => ?_, on_change⟩
  cases hstep : step disk with
  | error fault =>
      rw [on_change_error hstep] at h
      cases h
  | ok changed =>
      rw [on_change hstep] at h
      cases h
      rfl

theorem on_walk_eq_ok {folder : Text} {visits : List Disk.Visit} :
    (walk folder).on disk = (.ok visits, disk') ↔ disk.walk folder = .ok visits ∧ disk' = disk := by
  refine ⟨fun h => ?_, ?_⟩
  · cases hwalk : disk.walk folder with
    | error fault =>
        rw [on_walk_error hwalk] at h
        cases h
    | ok found =>
        rw [on_walk hwalk] at h
        cases h
        exact ⟨rfl, rfl⟩
  · rintro ⟨hwalk, rfl⟩
    exact on_walk hwalk

theorem on_makeFolders_eq_ok {folder : Text} :
    (makeFolders folder).on disk = (.ok (), disk') ↔ disk.makeFolders folder = (.ok (), disk') := by
  refine ⟨fun h => ?_, on_makeFolders⟩
  cases hmake : disk.makeFolders folder with
  | mk outcome made =>
      cases outcome with
      | error fault =>
          rw [on_makeFolders_error hmake] at h
          cases h
      | ok =>
          rw [on_makeFolders hmake] at h
          cases h
          rfl

theorem on_removeTree_disk {folder : Text} :
    ((removeTree doing folder).on disk).2 = (disk.removeTree folder).2 := by
  cases hremove : disk.removeTree folder with
  | mk outcome removed =>
      cases outcome with
      | error fault => rw [on_removeTree_error hremove]
      | ok => rw [on_removeTree hremove]

theorem on_removeTree_eq_ok {folder : Text} :
    (removeTree doing folder).on disk = (.ok (), disk') ↔ disk.removeTree folder = (.ok (), disk') := by
  refine ⟨fun h => ?_, on_removeTree⟩
  cases hremove : disk.removeTree folder with
  | mk outcome removed =>
      cases outcome with
      | error fault =>
          rw [on_removeTree_error hremove] at h
          cases h
      | ok =>
          rw [on_removeTree hremove] at h
          cases h
          rfl

-- ============================================================== one after the other

variable {xs : List α} {step : α → Edit β} {answers : List β}

theorem on_mapM_cons {x : α} {disk'' : Disk} (h : ((x :: xs).mapM step).on disk = (.ok answers, disk'')) :
    ∃ first disk' rest, (step x).on disk = (.ok first, disk')
      ∧ (xs.mapM step).on disk' = (.ok rest, disk'') ∧ answers = first :: rest := by
  rw [List.mapM_cons] at h
  obtain ⟨first, disk', hfirst, h⟩ := on_bind_eq_ok.1 h
  obtain ⟨rest, disk₂, hrest, h⟩ := on_bind_eq_ok.1 h
  cases h
  exact ⟨first, disk', rest, hfirst, hrest, rfl⟩

/-- What holds of the disk and the list, and is carried on by each step to what is left of
the list, holds at the end. -/
theorem on_mapM_run (inv : List α → Disk → Prop)
    (hstep : ∀ x rest disk answer disk', inv (x :: rest) disk →
      (step x).on disk = (.ok answer, disk') → inv rest disk')
    (hinv : inv xs disk) (h : (xs.mapM step).on disk = (.ok answers, disk')) : inv [] disk' := by
  induction xs generalizing disk answers with
  | nil =>
      cases h
      exact hinv
  | cons x xs ih =>
      obtain ⟨first, disk₁, rest, hfirst, hrest, -⟩ := on_mapM_cons h
      exact ih (hstep x xs disk first disk₁ hinv hfirst) hrest

/-- Steps that go through where an invariant holds, and carry it on, all go through. -/
theorem on_mapM_completes (inv : List α → Disk → Prop)
    (hstep : ∀ x rest disk, inv (x :: rest) disk →
      ∃ answer disk', (step x).on disk = (.ok answer, disk') ∧ inv rest disk')
    (hinv : inv xs disk) : ∃ answers disk', (xs.mapM step).on disk = (.ok answers, disk') ∧ inv [] disk' := by
  induction xs generalizing disk with
  | nil => exact ⟨[], disk, rfl, hinv⟩
  | cons x xs ih =>
      obtain ⟨first, disk₁, hfirst, hinv₁⟩ := hstep x xs disk hinv
      obtain ⟨rest, disk', hrest, hinv'⟩ := ih hinv₁
      refine ⟨first :: rest, disk', ?_, hinv'⟩
      rw [List.mapM_cons, on_bind_ok hfirst, on_bind_ok hrest]
      rfl

/-- Steps that leave the disk alone. -/
theorem on_mapM_same (good : β → Prop)
    (h : ∀ x ∈ xs, ∃ answer, (step x).on disk = (.ok answer, disk) ∧ good answer) :
    ∃ answers, (xs.mapM step).on disk = (.ok answers, disk) ∧ ∀ answer ∈ answers, good answer := by
  induction xs with
  | nil => exact ⟨[], rfl, by simp⟩
  | cons x xs ih =>
      obtain ⟨first, hfirst, hgood⟩ := h x (List.mem_cons_self ..)
      obtain ⟨rest, hrest, hall⟩ := ih fun y hy => h y (List.mem_cons_of_mem _ hy)
      refine ⟨first :: rest, ?_, fun answer hmem => ?_⟩
      · rw [List.mapM_cons, on_bind_ok hfirst, on_bind_ok hrest]
        rfl
      · rcases List.mem_cons.1 hmem with rfl | hmem
        · exact hgood
        · exact hall answer hmem

theorem on_forM_run {step : α → Edit Unit} (inv : List α → Disk → Prop)
    (hstep : ∀ x rest disk disk', inv (x :: rest) disk → (step x).on disk = (.ok (), disk') → inv rest disk')
    (hinv : inv xs disk) (h : (xs.forM step).on disk = (.ok (), disk')) : inv [] disk' := by
  induction xs generalizing disk with
  | nil =>
      cases h
      exact hinv
  | cons x xs ih =>
      have hcons : (step x >>= fun _ => xs.forM step).on disk = (.ok (), disk') := h
      obtain ⟨⟨⟩, disk₁, hfirst, hrest⟩ := on_bind_eq_ok.1 hcons
      exact ih (hstep x xs disk disk₁ hinv hfirst) hrest

theorem on_forM_same {step : α → Edit Unit} (h : ∀ x ∈ xs, (step x).on disk = (.ok (), disk)) :
    (xs.forM step).on disk = (.ok (), disk) := by
  induction xs with
  | nil => rfl
  | cons x xs ih =>
      show (step x >>= fun _ => xs.forM step).on disk = _
      rw [on_bind_ok (h x (List.mem_cons_self ..))]
      exact ih fun y hy => h y (List.mem_cons_of_mem _ hy)

end Edit

end SiteScaffold

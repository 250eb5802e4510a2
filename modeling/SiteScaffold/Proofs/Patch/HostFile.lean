/-
Patching a file on disk comes down to patching its text. A file that can be read can
be written, and what was written reads back, so the only way for a patch to fail is
the refusal of its fragment, and then the disk is left alone (`insert_on`,
`insert_on_error`, `remove_on`). A file that cannot be read is left alone, too
(`insert_cases`, `remove_cases`). No patch takes an entry away or brings one (`covers_insert`,
`covers_remove`).
-/
import SiteScaffold.Patch.HostFile
import SiteScaffold.Proofs.Disk.Covers
import SiteScaffold.Proofs.Edit

namespace SiteScaffold

open Disk (Covers HoldsText Refilled)

variable {disk disk' : Disk} {k : Key} {path : Text} {t t' : Text}

-- ================================================================= patching a file

namespace Patch.HostFile

variable {patched : Option Text} {refusal : Refusal}

/-- What something new, or nothing new, comes to. -/
def outcome {α : Type} : Option α → Outcome
  | some _ => .applied
  | none => .unchanged

theorem outcome_map {α β : Type} (f : α → β) (new : Option α) : outcome (new.map f) = outcome new := by
  cases new with
  | none => rfl
  | some _ => rfl

/-- The content that a patch leads to is written, if there is one, and the rest of the
disk is left alone. -/
theorem settle_on (fragment : Fragment) (h : disk.HoldsText path k t) (patched : Option Text) :
    ∃ disk', (settle path fragment patched).on disk = (.ok (outcome patched), disk')
      ∧ disk'.HoldsText path k (patched.getD t) ∧ Refilled k disk disk' := by
  cases patched with
  | none => exact ⟨disk, rfl, h, .refl k disk⟩
  | some new =>
      obtain ⟨disk', hwrite, hread, hrefilled⟩ := h.write new
      refine ⟨disk', ?_, hread, hrefilled⟩
      have hconfirmed : (writeConfirmed path fragment new).on disk = (.ok (), disk') := by
        unfold writeConfirmed
        rw [Edit.on_bind_ok (Edit.on_writeText hwrite), Edit.on_bind_ok (Edit.on_readText hread),
          if_neg (not_not_intro rfl)]
        rfl
      show (writeConfirmed path fragment new >>= fun _ => pure Outcome.applied).on disk = _
      rw [Edit.on_bind_ok hconfirmed]
      rfl

/-- Insertion that the fragment does not refuse. -/
theorem insert_on (fragment : Fragment) (h : disk.HoldsText path k t) (hinsert : fragment.insert t = .ok patched) :
    ∃ disk', (insert path fragment).on disk = (.ok (outcome patched), disk')
      ∧ disk'.HoldsText path k (patched.getD t) ∧ Refilled k disk disk' := by
  obtain ⟨disk', hsettle, hread, hrefilled⟩ := settle_on fragment h patched
  refine ⟨disk', ?_, hread, hrefilled⟩
  unfold insert
  rw [Edit.on_bind_ok (Edit.on_readText h), hinsert]
  exact hsettle

/-- Insertion that the fragment refuses. -/
theorem insert_on_error (fragment : Fragment) (h : disk.HoldsText path k t)
    (hinsert : fragment.insert t = .error refusal) :
    (insert path fragment).on disk = (.error ⟨[], refusal.cause path⟩, disk) := by
  unfold insert
  rw [Edit.on_bind_ok (Edit.on_readText h), hinsert]
  rfl

theorem remove_on (fragment : Fragment) (h : disk.HoldsText path k t) :
    ∃ disk', (remove path fragment).on disk = (.ok (outcome (fragment.remove t)), disk')
      ∧ disk'.HoldsText path k ((fragment.remove t).getD t) ∧ Refilled k disk disk' := by
  obtain ⟨disk', hsettle, hread, hrefilled⟩ := settle_on fragment h (fragment.remove t)
  refine ⟨disk', ?_, hread, hrefilled⟩
  unfold remove
  rw [Edit.on_bind_ok (Edit.on_readText h)]
  exact hsettle

/-- Whatever the file holds, an insertion either fails and leaves the disk alone or does
what it does to the text. -/
theorem insert_cases {fragment : Fragment} {answer : Except Failure Outcome}
    (h : (insert path fragment).on disk = (answer, disk')) :
    (∃ failure, answer = .error failure) ∧ disk' = disk
      ∨ ∃ k t patched, disk.HoldsText path k t ∧ fragment.insert t = .ok patched ∧ answer = .ok (outcome patched)
        ∧ disk'.HoldsText path k (patched.getD t) ∧ Refilled k disk disk' := by
  cases hread : disk.readText path with
  | error fault =>
      unfold insert at h
      rw [Edit.on_bind_error (Edit.on_readText_error hread)] at h
      cases h
      exact .inl ⟨⟨_, rfl⟩, rfl⟩
  | ok t =>
      obtain ⟨k, hholds⟩ := Disk.readText_eq_ok_iff.1 hread
      cases hinsert : fragment.insert t with
      | error refusal =>
          rw [insert_on_error fragment hholds hinsert] at h
          cases h
          exact .inl ⟨⟨_, rfl⟩, rfl⟩
      | ok patched =>
          obtain ⟨new, hedit, hnew, hrefilled⟩ := insert_on fragment hholds hinsert
          rw [hedit] at h
          cases h
          exact .inr ⟨k, t, patched, hholds, hinsert, rfl, hnew, hrefilled⟩

/-- A removal fails only for a file that cannot be read, and then leaves the disk alone. -/
theorem remove_total (disk : Disk) (path : Text) (fragment : Fragment) :
    (∃ failure, (remove path fragment).on disk = (.error failure, disk) ∧ failure.OfSystem
        ∧ ¬ ∃ k t, disk.HoldsText path k t)
      ∨ ∃ k t disk', disk.HoldsText path k t
        ∧ (remove path fragment).on disk = (.ok (outcome (fragment.remove t)), disk')
        ∧ disk'.HoldsText path k ((fragment.remove t).getD t) ∧ Refilled k disk disk' := by
  cases hread : disk.readText path with
  | error fault =>
      refine .inl ⟨_, Edit.on_bind_error (Edit.on_readText_error hread), rfl, ?_⟩
      rintro ⟨k, t, hholds⟩
      rw [Disk.readText_eq_ok_iff.2 ⟨k, hholds⟩] at hread
      cases hread
  | ok t =>
      obtain ⟨k, hholds⟩ := Disk.readText_eq_ok_iff.1 hread
      exact .inr ⟨k, t, (remove_on fragment hholds).imp fun _ h => ⟨hholds, h⟩⟩

theorem remove_cases {fragment : Fragment} {answer : Except Failure Outcome}
    (h : (remove path fragment).on disk = (answer, disk')) :
    (∃ failure, answer = .error failure) ∧ disk' = disk
      ∨ ∃ k t, disk.HoldsText path k t ∧ answer = .ok (outcome (fragment.remove t))
        ∧ disk'.HoldsText path k ((fragment.remove t).getD t) ∧ Refilled k disk disk' := by
  rcases remove_total disk path fragment with ⟨failure, hedit, -⟩ | ⟨k, t, new, hholds, hedit, hnew, hrefilled⟩
  · rw [hedit] at h
    cases h
    exact .inl ⟨⟨_, rfl⟩, rfl⟩
  · rw [hedit] at h
    cases h
    exact .inr ⟨k, t, hholds, rfl, hnew, hrefilled⟩

theorem covers_insert (disk : Disk) (path : Text) (fragment : Fragment) :
    Covers disk ((insert path fragment).on disk).2 ∧ Covers ((insert path fragment).on disk).2 disk := by
  rcases insert_cases (Prod.eta ((insert path fragment).on disk)).symm with
    ⟨-, heq⟩ | ⟨k, t, patched, hholds, -, -, -, hrefilled⟩
  · rw [heq]
    exact ⟨.refl disk, .refl disk⟩
  · exact Covers.of_refilled hholds hrefilled

theorem covers_remove (disk : Disk) (path : Text) (fragment : Fragment) :
    Covers disk ((remove path fragment).on disk).2 ∧ Covers ((remove path fragment).on disk).2 disk := by
  rcases remove_cases (Prod.eta ((remove path fragment).on disk)).symm with
    ⟨-, heq⟩ | ⟨k, t, hholds, -, -, hrefilled⟩
  · rw [heq]
    exact ⟨.refl disk, .refl disk⟩
  · exact Covers.of_refilled hholds hrefilled

end Patch.HostFile

end SiteScaffold

/-
Text files by path. A path that leads to a text file (`HoldsText`) can be read, and
written without fail; what is written is read back, and nothing else on the disk
changes.
-/
import SiteScaffold.Proofs.Disk.Locate

namespace SiteScaffold.Disk

variable {disk disk' : Disk} {k : Key} {path : Text} {follow : Bool} {r : Located} {t : Text}

-- ================================================================ whole paths

/-- Whether the system takes the text for a path. -/
structure IsPath (path : Text) : Prop where
  noNul : '\x00' ∉ path
  not_nil : path ≠ []
  size : Text.byteSize path ≤ longestPath

theorem locate_eq_ok_iff :
    disk.locate follow path = .ok r ↔
      IsPath path ∧ Leads disk follow 40 [] (Path.segments path) r := by
  rw [← locateFrom_eq_ok_iff]
  unfold locate
  constructor
  · intro h
    split at h
    next => cases h
    next hnul =>
      split at h
      next => cases h
      next hne =>
        split at h
        next => cases h
        next hsize => exact ⟨⟨hnul, hne, by omega⟩, h⟩
  · rintro ⟨⟨hnul, hne, hsize⟩, h⟩
    rw [if_neg hnul, if_neg hne, if_neg (by omega)]
    exact h

/-- What the system does not take for a path is refused, and not for something that is missing. -/
theorem locate_of_not_isPath (hne : path ≠ []) (h : ¬ IsPath path) :
    ∃ fault, fault ≠ .missing ∧ ∀ (disk : Disk) (follow : Bool), disk.locate follow path = .error fault := by
  unfold locate
  by_cases hnul : '\x00' ∈ path
  · refine ⟨_, ?_, fun disk follow => if_pos hnul⟩
    simp
  · have hsize : longestPath < Text.byteSize path := by
      rw [← Nat.not_le]
      exact fun hsize => h ⟨hnul, hne, hsize⟩
    refine ⟨.nameTooLong, by simp, fun disk follow => ?_⟩
    rw [if_neg hnul, if_neg hne, if_pos hsize]

/-- A path that does not lead to the place of a change leads where it led before, if
it could not have gone on from there. -/
theorem locate_congr (hk : k ≠ []) (hagree : AgreeOff k disk disk') (hleaf : disk.IsLeaf k)
    (h : disk.locate follow path = .ok r) (hr : r.key ≠ k) : disk'.locate follow path = .ok r := by
  obtain ⟨hpath, hleads⟩ := locate_eq_ok_iff.1 h
  refine locate_eq_ok_iff.2 ⟨hpath, hleads.congr hagree hleaf ?_ hr⟩
  rwa [List.prefix_nil]

/-- A path that leads to the place of a change finds what stands there now. -/
theorem locate_at (hk : k ≠ []) (hagree : AgreeOff k disk disk') (hleaf : disk.IsLeaf k)
    (hleaf' : disk'.IsLeaf k) (h : disk.locate follow path = .ok (disk.place k)) :
    disk'.locate follow path = .ok (disk'.place k) := by
  obtain ⟨hpath, hleads⟩ := locate_eq_ok_iff.1 h
  refine locate_eq_ok_iff.2 ⟨hpath, hleads.at hagree hleaf hleaf' ?_⟩
  rwa [List.prefix_nil]

-- ================================================================= text files

/-- The path leads to a file with the text, which stands at the place. -/
def HoldsText (disk : Disk) (path : Text) (k : Key) (t : Text) : Prop :=
  ∃ x, disk.locate true path = .ok (.entry k (.file x (.text t)))

theorem readText_eq_ok_iff : disk.readText path = .ok t ↔ ∃ k, disk.HoldsText path k t := by
  constructor
  · intro h
    unfold readText read find at h
    cases hlocate : disk.locate true path with
    | error fault =>
        rw [hlocate] at h
        cases h
    | ok r =>
        rw [hlocate] at h
        match r, h with
        | .entry k (.file x (.text s)), h =>
            cases h
            exact ⟨k, x, hlocate⟩
  · rintro ⟨k, x, h⟩
    unfold readText read find
    rw [h]
    rfl

theorem HoldsText.lookup (h : disk.HoldsText path k t) :
    ∃ x, disk.lookup k = some (.file x (.text t)) := by
  obtain ⟨x, hlocate⟩ := h
  exact ⟨x, (locate_eq_ok_iff.1 hlocate).2.lookup⟩

/-- A file has one text. -/
theorem HoldsText.text_unique {path' t' : Text} (h : disk.HoldsText path k t) (h' : disk.HoldsText path' k t') :
    t = t' := by
  obtain ⟨x, hlookup⟩ := h.lookup
  obtain ⟨x', hlookup'⟩ := h'.lookup
  rw [hlookup'] at hlookup
  cases hlookup
  rfl

theorem HoldsText.ne_nil (h : disk.HoldsText path k t) : k ≠ [] := by
  rintro rfl
  obtain ⟨x, hlookup⟩ := h.lookup
  cases hlookup

theorem isLeaf_of_file {x : Bool} {c : Content} (h : disk.lookup k = some (.file x c)) :
    disk.IsLeaf k := by
  intro e he
  rw [h] at he
  cases he
  rfl

theorem agreeBut_insert {e : Entry} (hk : k ≠ []) : AgreeBut k disk (disk.insert k e) := by
  intro j hj
  rw [lookup_insert hk, if_neg hj]

/-- Whether two disks differ in the content of one file only. -/
structure Refilled (k : Key) (disk disk' : Disk) : Prop where
  same : AgreeBut k disk disk'
  mode : ∀ x c, disk.lookup k = some (.file x c) → ∃ c', disk'.lookup k = some (.file x c')

theorem Refilled.refl (k : Key) (disk : Disk) : Refilled k disk disk :=
  ⟨fun _ _ => rfl, fun _ c h => ⟨c, h⟩⟩

/-- A text file can be written, keeps its mode, and is read back. -/
theorem HoldsText.write (h : disk.HoldsText path k t) (t' : Text) :
    ∃ disk', disk.write path (.text t') = .ok disk' ∧ disk'.HoldsText path k t'
      ∧ Refilled k disk disk' := by
  have hk := h.ne_nil
  obtain ⟨x, hlocate⟩ := h
  have hlookup := (locate_eq_ok_iff.1 hlocate).2.lookup
  have hnew : (disk.insert k (.file x (.text t'))).lookup k = some (.file x (.text t')) := by
    rw [lookup_insert hk, if_pos rfl]
  refine ⟨disk.insert k (.file x (.text t')), ?_, ⟨x, ?_⟩, agreeBut_insert hk, ?_⟩
  · unfold Disk.write
    rw [hlocate]
    rfl
  · rw [← place_of_some hlookup] at hlocate
    rw [← place_of_some hnew]
    exact locate_at hk (agreeBut_insert hk).agreeOff (isLeaf_of_file hlookup) (isLeaf_of_file hnew) hlocate
  · intro x' c h
    rw [hlookup] at h
    cases h
    exact ⟨_, hnew⟩

/-- Another path leads to the same file and finds the new text there, or to another one that is
as it was. -/
theorem HoldsText.refilled {j : Key} {path' s t' : Text} (h : disk.HoldsText path k t) (hnew : disk'.HoldsText path k t')
    (hrefilled : Refilled k disk disk') (hother : disk.HoldsText path' j s) :
    j = k ∧ s = t ∧ disk'.HoldsText path' k t' ∨ j ≠ k ∧ disk'.HoldsText path' j s := by
  obtain ⟨x, hlookup⟩ := h.lookup
  obtain ⟨x', hlookup'⟩ := hnew.lookup
  have hagree := hrefilled.same.agreeOff
  have hleaf := isLeaf_of_file hlookup
  by_cases heq : j = k
  · subst heq
    obtain ⟨y, hlocate⟩ := hother
    have hsame := (locate_eq_ok_iff.1 hlocate).2.lookup
    rw [hlookup] at hsame
    cases hsame
    rw [← place_of_some hlookup] at hlocate
    refine .inl ⟨rfl, rfl, x', ?_⟩
    rw [← place_of_some hlookup']
    exact locate_at h.ne_nil hagree hleaf (isLeaf_of_file hlookup') hlocate
  · obtain ⟨y, hlocate⟩ := hother
    exact .inr ⟨heq, y, locate_congr h.ne_nil hagree hleaf hlocate heq⟩

end SiteScaffold.Disk

/-
Normal forms of names. A character becomes exactly one (`length_normalizeChar`), although its lower
case may be longer: that happens to İ alone (`length_lower`), which is folded before it is lowered.
A character of the alphabet stays what it is (`normalizeChar_self`). So the normal forms are the texts
over the alphabet (`isNormal_iff`), and normalising retracts all texts onto them, letter by letter
(`normalize_retracts`).
-/
import SiteScaffold.Proofs.Text.Class

namespace SiteScaffold.Name

variable {c : Char} {name : Text}

-- ============================================================ the alphabet

/-- Whether the text is over the alphabet of names: lower-case letters and digits of ASCII and the
underscore. -/
def InAlphabet (t : Text) : Prop := ∀ c ∈ t, ('a' ≤ c ∧ c ≤ 'z') ∨ ('0' ≤ c ∧ c ≤ '9') ∨ c = '_'

theorem inAlphabet_iff {t : Text} : InAlphabet t ↔ ∀ c ∈ t, isNameChar c := by
  simp only [InAlphabet, isNameChar_iff]

-- =========================================================== one character

/-- Only İ has a lower case of more than one character. -/
theorem length_lower (c : Char) : (Text.lower c).length = if c = 'İ' then 2 else 1 := by
  unfold Text.lower
  split
  next hsmall =>
    have hother : c ≠ 'İ' := by
      rintro rfl
      exact absurd hsmall (by decide)
    rw [if_neg hother]
    rfl
  next =>
    split
    next => rfl
    next => rfl

/-- A character becomes exactly one, since İ is folded before it is lowered. -/
theorem length_normalizeChar (c : Char) : (normalizeChar c).length = 1 := by
  unfold normalizeChar
  cases hfold : fold? c with
  | some letter => rfl
  | none =>
      have hother : c ≠ 'İ' := by
        rintro rfl
        cases hfold
      rw [List.length_map, length_lower, if_neg hother]

/-- A character of the alphabet stays what it is. -/
theorem normalizeChar_self (h : isNameChar c) : normalizeChar c = [c] := by
  have hself := forall_isNameChar (P := fun c => normalizeChar c = [c]) (by decide +kernel)
    (by decide +kernel) (by decide +kernel) h
  exact of_decide_eq_true hself

-- ================================================================ a whole name

theorem normalize_cons (c : Char) (raw : Text) : normalize (c :: raw) = normalizeChar c ++ normalize raw :=
  List.flatMap_cons

theorem length_normalize (raw : Text) : (normalize raw).length = raw.length := by
  induction raw with
  | nil => rfl
  | cons c raw ih =>
      rw [normalize_cons, List.length_append, length_normalizeChar, ih, List.length_cons, Nat.add_comm]

theorem normalize_append (raw more : Text) : normalize (raw ++ more) = normalize raw ++ normalize more :=
  List.flatMap_append

theorem normalize_of_inAlphabet (h : InAlphabet name) : normalize name = name := by
  rw [inAlphabet_iff] at h
  induction name with
  | nil => rfl
  | cons c name ih =>
      obtain ⟨hc, hname⟩ := List.forall_mem_cons.1 h
      rw [normalize_cons, normalizeChar_self hc, ih hname, List.singleton_append]

theorem inAlphabet_normalize (raw : Text) : InAlphabet (normalize raw) :=
  inAlphabet_iff.2 fun _ hc => isNameChar_of_mem_normalize hc

/-- The normal forms are the texts over the alphabet. -/
theorem isNormal_iff : IsNormal name ↔ InAlphabet name := by
  constructor
  · rintro ⟨raw, rfl⟩
    exact inAlphabet_normalize raw
  · intro h
    exact ⟨name, (normalize_of_inAlphabet h).symm⟩

/-- Normalising retracts all texts onto those over the alphabet, one character for each, even where
a character alone would have a longer lower case. -/
theorem normalize_retracts (raw more : Text) :
    InAlphabet (normalize raw)
      ∧ (normalize raw).length = raw.length ∧ (∃ c, 1 < (Text.lower c).length)
      ∧ normalize (normalize raw) = normalize raw
      ∧ normalize (raw ++ more) = normalize raw ++ normalize more
      ∧ (normalize raw = raw ↔ InAlphabet raw) := by
  have hnormal := inAlphabet_normalize raw
  have hlong : 1 < (Text.lower 'İ').length := by
    rw [length_lower, if_pos rfl]
    decide
  exact ⟨hnormal, length_normalize raw, ⟨'İ', hlong⟩, normalize_of_inAlphabet hnormal,
    normalize_append raw more, fun hsame => isNormal_iff.1 ⟨raw, hsame.symm⟩, normalize_of_inAlphabet⟩

example : normalize "İçerik-Şablonu" = "icerik_sablonu" := by decide +kernel

end SiteScaffold.Name

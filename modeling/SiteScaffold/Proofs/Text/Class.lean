/-
How the character classes of the program lie to each other: white space and
quotation marks are outside words, and the characters of a normalised name are
inside them. What holds of a class is checked at its members, which for a range
are counted out by code point (`all_between`).
-/
import SiteScaffold.Name
import SiteScaffold.Text.Word
import SiteScaffold.Pattern.Class

namespace SiteScaffold.Text

/-- What holds at every code point from one character to another holds of the
characters between them. -/
theorem all_between {P : Char → Bool} {a b c : Char}
    (hall : (List.range' a.toNat (b.toNat + 1 - a.toNat)).all fun n => P (Char.ofNat n))
    (hac : a ≤ c) (hcb : c ≤ b) : P c := by
  have hac' : a.toNat ≤ c.toNat := hac
  have hcb' : c.toNat ≤ b.toNat := hcb
  have hmem : c.toNat ∈ List.range' a.toNat (b.toNat + 1 - a.toNat) := by
    rw [List.mem_range'_1]
    omega
  have hP := List.all_eq_true.1 hall _ hmem
  rwa [Char.ofNat_toNat] at hP

-- ================================================================ white space

/-- White space is outside words. -/
theorem not_isWord_of_isBlank {c : Char} (h : isBlank c) : isWord c = false := by
  have hspaces : ∀ d ∈ [' ', '\u0085', '\u00a0', '\u1680', '\u2028', '\u2029', '\u202f',
      '\u205f', '\u3000'], isWord d = false := by decide +kernel
  have hcontrols : (List.range' 9 5).all fun n => !isWord (Char.ofNat n) := by decide +kernel
  have hwide : (List.range' 0x2000 11).all fun n => !isWord (Char.ofNat n) := by decide +kernel
  simp only [isBlank, Bool.or_eq_true, Bool.and_eq_true, decide_eq_true_eq] at h
  rcases h with (((((((((rfl | ⟨h, h'⟩) | rfl) | rfl) | rfl) | ⟨h, h'⟩) | rfl) | rfl) | rfl) | rfl)
    | rfl
  all_goals first
    | exact hspaces _ (by decide)
    | simpa using all_between (P := fun c => !isWord c) (a := '\t') (b := '\r') hcontrols h h'
    | simpa using all_between (P := fun c => !isWord c) (a := '\u2000') (b := '\u200a') hwide h h'

theorem not_isBlank_of_isQuote {c : Char} (h : Pattern.isQuote c) : isBlank c = false := by
  simp only [Pattern.isQuote, Bool.or_eq_true, decide_eq_true_eq] at h
  rcases h with rfl | rfl
  · decide
  · decide

theorem isBlank_of_isSpacing {c : Char} (h : Pattern.isSpacing c) : isBlank c := by
  simp only [Pattern.isSpacing, Bool.or_eq_true, decide_eq_true_eq] at h
  rcases h with rfl | rfl
  · decide
  · decide

theorem not_isQuote_of_isBlank {c : Char} (h : isBlank c) : Pattern.isQuote c = false := by
  cases hquote : Pattern.isQuote c with
  | false => rfl
  | true => exact absurd h (by simp [not_isBlank_of_isQuote hquote])

theorem not_isWord_of_isQuote {c : Char} (h : Pattern.isQuote c) : isWord c = false := by
  simp only [Pattern.isQuote, Bool.or_eq_true, decide_eq_true_eq] at h
  rcases h with rfl | rfl
  · decide
  · decide

end SiteScaffold.Text

namespace SiteScaffold.Name

open Text

-- ============================================================ normalised names

/-- A name character is an ASCII letter or digit or the underscore. -/
theorem isNameChar_iff {c : Char} :
    isNameChar c ↔ ('a' ≤ c ∧ c ≤ 'z') ∨ ('0' ≤ c ∧ c ≤ '9') ∨ c = '_' := by
  have hlower : c.isLower = decide ('a' ≤ c ∧ c ≤ 'z') := (Bool.decide_and ..).symm
  simp [isNameChar, hlower, Char.isDigit, Char.le_def, or_assoc]

/-- What holds of the lower-case letters, the digits and the underscore holds of
every name character. -/
theorem forall_isNameChar {P : Char → Bool}
    (hlower : (List.range' 97 26).all fun n => P (Char.ofNat n))
    (hdigit : (List.range' 48 10).all fun n => P (Char.ofNat n)) (hunder : P '_')
    {c : Char} (h : isNameChar c) : P c := by
  rcases isNameChar_iff.1 h with ⟨h, h'⟩ | ⟨h, h'⟩ | rfl
  · exact all_between (a := 'a') (b := 'z') hlower h h'
  · exact all_between (a := '0') (b := '9') hdigit h h'
  · exact hunder

theorem not_isBlank_of_isNameChar {c : Char} (h : isNameChar c) : isBlank c = false := by
  have hblank := forall_isNameChar (P := fun c => !isBlank c) (by decide) (by decide) (by decide) h
  simpa using hblank

theorem not_isQuote_of_isNameChar {c : Char} (h : isNameChar c) : Pattern.isQuote c = false := by
  have hquote := forall_isNameChar (P := fun c => !Pattern.isQuote c) (by decide) (by decide)
    (by decide) h
  simpa using hquote

theorem isWord_of_isNameChar {c : Char} (h : isNameChar c) : Text.isWord c = true :=
  forall_isNameChar (by decide +kernel) (by decide +kernel) (by decide +kernel) h

theorem ne_of_isNameChar {c d : Char} (h : isNameChar c) (hd : isNameChar d = false) : c ≠ d := by
  rintro rfl
  rw [h] at hd
  cases hd

theorem isNameChar_of_fold? {c letter : Char} (h : fold? c = some letter) : isNameChar letter := by
  have hall : ∀ pair ∈ foldings, isNameChar pair.2 := by decide
  obtain ⟨front, back, hsplit, -⟩ := List.lookup_eq_some_iff.1 h
  exact hall (c, letter) (by rw [hsplit]; simp)

/-- A normalised name is made of name characters. -/
theorem isNameChar_of_mem_normalize {raw : Text} {c : Char} (h : c ∈ normalize raw) :
    isNameChar c := by
  obtain ⟨d, -, hd⟩ := List.mem_flatMap.1 h
  unfold normalizeChar at hd
  cases hfold : fold? d with
  | some letter =>
      rw [hfold] at hd
      rw [List.mem_singleton.1 hd]
      exact isNameChar_of_fold? hfold
  | none =>
      rw [hfold] at hd
      obtain ⟨l, -, rfl⟩ := List.mem_map.1 hd
      split
      next hl => exact hl
      next =>
        cases hletter : fold? l with
        | none => decide
        | some letter => exact isNameChar_of_fold? hletter

/-- A character of a name leaves at least one behind. -/
theorem normalizeChar_ne_nil (c : Char) : normalizeChar c ≠ [] := by
  have hlower : Text.lower c ≠ [] := by
    unfold Text.lower
    split
    next => simp
    next =>
      split
      next => simp
      next => simp
  unfold normalizeChar
  split
  next => simp
  next => simpa using hlower

theorem normalize_ne_nil {raw : Text} (h : raw ≠ []) : normalize raw ≠ [] := by
  obtain ⟨c, raw, rfl⟩ := List.exists_cons_of_ne_nil h
  intro hnil
  rw [normalize, List.flatMap_cons, List.append_eq_nil_iff] at hnil
  exact normalizeChar_ne_nil c hnil.1

/-- Whether a text is the normalised form of a name. -/
def IsNormal (name : Text) : Prop := ∃ raw, name = normalize raw

variable {name : Text}

theorem IsNormal.isNameChar (h : IsNormal name) : ∀ c ∈ name, isNameChar c := by
  obtain ⟨raw, rfl⟩ := h
  exact fun c hc => isNameChar_of_mem_normalize hc

theorem IsNormal.notMem {c : Char} (h : IsNormal name) (hc : Name.isNameChar c = false) :
    c ∉ name := by
  intro hmem
  rw [h.isNameChar c hmem] at hc
  cases hc

end SiteScaffold.Name

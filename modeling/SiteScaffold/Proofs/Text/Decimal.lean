/-
Numbers read from decimal digits. A run of ASCII digits stands for one number, whatever zeros it
starts with, and is read unless that number is too large (`decimal?_digits`). A number that is
written in digits is read back (`decimal?_ofNat`).
-/
import SiteScaffold.Text.Digit

namespace SiteScaffold.Text

variable {c : Char} {digits : Text}

/-- The digits of ASCII are digits. -/
theorem isDigit_of_isAscii (h : c.isDigit) : isDigit c := by
  have hsmall : c.toNat < 128 := by
    simp only [Char.isDigit, Bool.and_eq_true, decide_eq_true_eq, UInt32.le_iff_toNat_le] at h
    show c.val.toNat < 128
    have hlast : c.val.toNat ≤ 57 := h.2
    omega
  rw [isDigit, if_pos hsmall]
  exact h

theorem decimalFrom_digits (hdigits : ∀ c ∈ digits, c.isDigit) (value : Nat) :
    decimalFrom value digits = some (Nat.ofDigitChars 10 digits value) := by
  induction digits generalizing value with
  | nil => rw [decimalFrom, Nat.ofDigitChars_nil]
  | cons c digits ih =>
      rw [decimalFrom, if_pos (hdigits c (List.mem_cons_self ..)),
        ih fun d hd => hdigits d (List.mem_cons_of_mem _ hd), Nat.ofDigitChars_cons, Nat.mul_comm]

/-- Digits are read as the number they stand for, unless it is too large. -/
theorem decimal?_digits (hne : digits ≠ []) (hdigits : ∀ c ∈ digits, c.isDigit) (largest : Nat) :
    decimal? largest digits
      = if Nat.ofDigitChars 10 digits 0 ≤ largest then some (Nat.ofDigitChars 10 digits 0) else none := by
  obtain ⟨c, rest, rfl⟩ := List.exists_cons_of_ne_nil hne
  rw [decimal?, decimalFrom_digits hdigits, Option.filter_some]
  simp only [decide_eq_true_eq]

theorem ofNat_ne_nil (n : Nat) : ofNat n ≠ [] := Nat.toDigits_ne_nil

theorem isDigit_of_mem_ofNat {n : Nat} (h : c ∈ ofNat n) : c.isDigit :=
  Nat.isDigit_of_mem_toDigits (by decide) (by decide) h

/-- A number is read back from its digits. -/
theorem decimal?_ofNat {n largest : Nat} (h : n ≤ largest) : decimal? largest (ofNat n) = some n := by
  have hvalue : Nat.ofDigitChars 10 (ofNat n) 0 = n := Nat.ofDigitChars_ten_toDigits
  rw [decimal?_digits (ofNat_ne_nil n) fun _ => isDigit_of_mem_ofNat, hvalue, if_pos h]

end SiteScaffold.Text

/-
Texts edited here and there. An edited text is the old one with some stretches swapped for
others (`Edited`), and where no swap can reach, the two texts fall apart alike: along
characters that no swapped stretch starts with (`Edited.split_front`) or ends with
(`Edited.split_back`), and at a character that is in none (`Edited.split_at`). Which text is
the old one and which the new one is all one to that (`Edited.flip`).
-/
import SiteScaffold.Proofs.Text.Lines

namespace SiteScaffold.Text

variable {R : Text → Text → Prop} {P : Char → Prop} {a a' b b' old new back front rest ws : Text}

/-- What becomes of a text when some of its stretches are swapped as `R` says and all else
stays. -/
inductive Edited (R : Text → Text → Prop) : Text → Text → Prop
  | nil : Edited R [] []
  | plain (c : Char) (t new : Text) (htail : Edited R t new) : Edited R (c :: t) (c :: new)
  | swap (x y t new : Text) (hswap : R x y) (htail : Edited R t new) : Edited R (x ++ t) (y ++ new)

namespace Edited

theorem flip (h : Edited R old new) : Edited (fun y x => R x y) new old := by
  induction h with
  | nil => exact .nil
  | plain c t new htail ih => exact .plain c new t ih
  | swap x y t new hswap htail ih => exact .swap y x new t hswap ih

/-- The characters of the new text are those of the old one, if swaps bring in none. -/
theorem mem {c : Char} (hswap : ∀ x y, R x y → c ∈ y → c ∈ x) (h : Edited R old new)
    (hc : c ∈ new) : c ∈ old := by
  induction h with
  | nil => exact hc
  | plain d t new htail ih =>
      rcases List.mem_cons.1 hc with rfl | hc
      · exact List.mem_cons_self ..
      · exact List.mem_cons_of_mem _ (ih hc)
  | swap x y t new hxy htail ih =>
      rcases List.mem_append.1 hc with hc | hc
      · exact List.mem_append_left _ (hswap x y hxy hc)
      · exact List.mem_append_right _ (ih hc)

/-- Without a character that every swap brings in nothing is swapped. -/
theorem eq_of_notMem {c : Char} (hswap : ∀ x y, R x y → c ∈ y) (h : Edited R old new)
    (hc : c ∉ new) : old = new := by
  induction h with
  | nil => rfl
  | plain d t new htail ih => rw [ih fun hmem => hc (List.mem_cons_of_mem _ hmem)]
  | swap x y t new hxy htail ih => exact absurd (List.mem_append_left _ (hswap x y hxy)) hc

/-- Along characters that no swapped stretch starts with both texts go on alike. -/
theorem split_front (hhead : ∀ x y, R x y → ∃ c r, x = c :: r ∧ ¬ P c) (hws : ∀ c ∈ ws, P c)
    (h : Edited R (ws ++ rest) new) : ∃ rest', new = ws ++ rest' ∧ Edited R rest rest' := by
  induction ws generalizing new with
  | nil => exact ⟨new, rfl, h⟩
  | cons c ws ih =>
      rw [List.cons_append] at h
      generalize hold : c :: (ws ++ rest) = old at h
      cases h with
      | nil => cases hold
      | plain d t new htail =>
          obtain ⟨rfl, rfl⟩ := List.cons_eq_cons.1 hold
          obtain ⟨rest', rfl, hrest⟩ := ih (fun e he => hws e (List.mem_cons_of_mem _ he)) htail
          exact ⟨rest', rfl, hrest⟩
      | swap x y t new hswap htail =>
          obtain ⟨d, r, rfl, hd⟩ := hhead x y hswap
          obtain ⟨rfl, -⟩ := List.cons_eq_cons.1 hold
          exact absurd (hws c (List.mem_cons_self ..)) hd

/-- A text of characters that no swapped stretch ends with stays. -/
theorem eq_of_last (hlast : ∀ x y, R x y → ∃ r e, x = r ++ [e] ∧ ¬ P e) (hws : ∀ c ∈ ws, P c)
    (h : Edited R ws new) : new = ws := by
  induction h with
  | nil => rfl
  | plain c t new htail ih => rw [ih fun d hd => hws d (List.mem_cons_of_mem _ hd)]
  | swap x y t new hswap htail ih =>
      obtain ⟨r, e, rfl, he⟩ := hlast x y hswap
      exact absurd (hws e (by simp)) he

/-- Along characters at the end that no swapped stretch ends with both texts end alike. -/
theorem split_back (hlast : ∀ x y, R x y → ∃ r e, x = r ++ [e] ∧ ¬ P e) (hws : ∀ c ∈ ws, P c)
    (h : Edited R (front ++ ws) new) : ∃ front', new = front' ++ ws ∧ Edited R front front' := by
  generalize hold : front ++ ws = old at h
  induction h generalizing front with
  | nil =>
      obtain ⟨rfl, rfl⟩ := List.append_eq_nil_iff.1 hold
      exact ⟨[], rfl, .nil⟩
  | plain c t new htail ih =>
      cases front with
      | nil =>
          obtain rfl : ws = c :: t := hold
          have hsame := eq_of_last hlast (fun d hd => hws d (List.mem_cons_of_mem _ hd)) htail
          exact ⟨[], by rw [hsame]; rfl, .nil⟩
      | cons d front =>
          obtain ⟨rfl, htext⟩ := List.cons_eq_cons.1 hold
          obtain ⟨front', rfl, hfront⟩ := ih htext
          exact ⟨d :: front', rfl, .plain d _ _ hfront⟩
  | swap x y t new hswap htail ih =>
      rcases List.append_eq_append_iff.1 hold with ⟨z, hx, hz⟩ | ⟨z, rfl, ht⟩
      · -- the stretch would end among the last characters
        cases List.eq_nil_or_concat' z with
        | inl hnil =>
            subst hnil
            rw [List.append_nil] at hx
            obtain ⟨front', rfl, hfront⟩ := @ih [] hz
            refine ⟨y ++ front', (List.append_assoc ..).symm, ?_⟩
            rw [← hx]
            exact (List.append_nil x) ▸ .swap x y [] front' hswap hfront
        | inr hlong =>
            obtain ⟨w, c, rfl⟩ := hlong
            obtain ⟨r, e, rfl, he⟩ := hlast x y hswap
            rw [← List.append_assoc] at hx
            obtain ⟨-, hlast⟩ := List.append_inj' hx rfl
            obtain rfl : e = c := by simpa using hlast
            exact absurd (hws e (by rw [hz]; simp)) he
      · obtain ⟨front', rfl, hfront⟩ := ih ht.symm
        exact ⟨y ++ front', (List.append_assoc ..).symm, .swap x y _ front' hswap hfront⟩

/-- At a character that is in no swapped stretch the texts fall apart alike. -/
theorem split_at {c : Char} (hnot : ∀ x y, R x y → c ∉ x) (h : Edited R (a ++ c :: b) new) :
    ∃ a' b', new = a' ++ c :: b' ∧ Edited R a a' ∧ Edited R b b' := by
  generalize hold : a ++ c :: b = old at h
  induction h generalizing a with
  | nil => simp at hold
  | plain d t new htail ih =>
      cases a with
      | nil =>
          obtain ⟨rfl, rfl⟩ := List.cons_eq_cons.1 hold
          exact ⟨[], new, rfl, .nil, htail⟩
      | cons e a =>
          obtain ⟨rfl, htext⟩ := List.cons_eq_cons.1 hold
          obtain ⟨a', b', rfl, ha, hb⟩ := ih htext
          exact ⟨e :: a', b', rfl, .plain e _ _ ha, hb⟩
  | swap x y t new hswap htail ih =>
      obtain ⟨z, rfl, ht⟩ := exists_append_of_notMem hold (hnot x y hswap)
      obtain ⟨a', b', rfl, ha, hb⟩ := ih ht.symm
      exact ⟨y ++ a', b', (List.append_assoc ..).symm, .swap x y z a' hswap ha, hb⟩

/-- If swapped stretches agree up to a character, both texts agree up to where it first
stands. -/
theorem split_first {c : Char}
    (hfirst : ∀ x y, R x y → ∃ z p q, x = z ++ c :: p ∧ y = z ++ c :: q ∧ c ∉ z) (ha : c ∉ a)
    (h : Edited R (a ++ c :: b) new) : ∃ b', new = a ++ c :: b' := by
  generalize hold : a ++ c :: b = old at h
  induction h generalizing a with
  | nil => simp at hold
  | plain d t new htail ih =>
      cases a with
      | nil =>
          obtain ⟨rfl, -⟩ := List.cons_eq_cons.1 hold
          exact ⟨new, rfl⟩
      | cons e a =>
          obtain ⟨rfl, htext⟩ := List.cons_eq_cons.1 hold
          obtain ⟨b', rfl⟩ := ih (fun hmem => ha (List.mem_cons_of_mem _ hmem)) htext
          exact ⟨b', rfl⟩
  | swap x y t new hswap htail ih =>
      obtain ⟨z, p, q, rfl, rfl, hz⟩ := hfirst x y hswap
      have hcut : a ++ c :: b = z ++ c :: (p ++ t) := by simpa using hold
      obtain rfl : a = z := eq_of_first hcut ha hz
      exact ⟨q ++ new, by simp⟩

end Edited

end SiteScaffold.Text

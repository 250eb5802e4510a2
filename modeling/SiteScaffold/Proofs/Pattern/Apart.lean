/-
Patterns that do not reach over a character. If a pattern matches the character nowhere, and
does not ask for the end of a line or of the text, it matches in front of the character what
it matches at the end of the text (`matchAt_apart`), provided that the character is no part
of a word. So a text falls apart at the character, and each part is rewritten by itself
(`rewrite_append`).

The induction is on the pattern. What it carries is that the two runs come to the same
places, told from the end of the text, as long as what follows them does.
-/
import SiteScaffold.Proofs.Pattern.Pieces

namespace SiteScaffold.Pattern

variable {p : Pattern} {s : Char} {before before' : Option Char} {t u tail : Text}
  {next next' : Cursor → Option Found}

/-- Whether the pattern matches the character nowhere, and asks for no end of a line or of
the text, nor for the start of a line. -/
def spares (s : Char) : Pattern → Bool
  | empty | boundary => true
  | one ok | many ok | few ok => !ok s
  | seq first second | alt first second => first.spares s && second.spares s
  | capture _ body => body.spares s
  | lineStart | lineEnd | textEnd => false

@[simp] theorem spares_append (p q : Pattern) : (p ++ q).spares s = (p.spares s && q.spares s) := rfl

theorem spares_literal (h : s ∉ t) : (literal t).spares s := by
  induction t with
  | nil => rfl
  | cons c t ih =>
      obtain ⟨hc, ht⟩ := not_or.1 (mt List.mem_cons.2 h)
      have hone : (one (· = c)).spares s := by simp [spares, hc]
      cases t with
      | nil => exact hone
      | cons d t => exact Bool.and_eq_true_iff.2 ⟨hone, ih ht⟩

namespace Found

/-- A match in a text that goes on for some more characters. -/
def longer (found : Found) (more : Nat) : Found where
  left := found.left + more
  ends := found.ends.map (· + more)
  kept := found.kept.map fun (n, start, stop) => (n, start + more, stop + more)

/-- Whether all captures start where at most some characters are left. -/
def Within (left : Nat) (found : Found) : Prop := ∀ k ∈ found.kept, k.2.1 ≤ left

end Found

/-- Whether a run in a text, where some characters are left, comes to the same as one in the
text that goes on. -/
def Alike (left more : Nat) : Option Found → Option Found → Prop :=
  Option.Rel fun found found' => found' = found.longer more ∧ found.Within left

namespace Alike

variable {left left' more : Nat} {a a' b b' : Option Found}

theorem mono (hle : left ≤ left') (h : Alike left more a a') : Alike left' more a a' := by
  cases h with
  | none => exact .none
  | some h => exact .some ⟨h.1, fun k hk => Nat.le_trans (h.2 k hk) hle⟩

theorem orElse (h : Alike left more a a') (hb : Alike left more b b') :
    Alike left more (a <|> b) (a' <|> b') := by
  cases h with
  | none => exact hb
  | some h => exact .some h

theorem closed (h : Alike left more a a') (stop : Nat) :
    Alike left more (a.map (·.closed stop)) (a'.map (·.closed (stop + more))) := by
  cases h with
  | none => exact .none
  | some h =>
      obtain ⟨rfl, hwithin⟩ := h
      exact .some ⟨by simp [Found.closed, Found.longer], hwithin⟩

/-- A capture that is opened here starts where the text is as long as it is here. -/
theorem opened (h : Alike left more a a') (n : Nat) :
    Alike left more (a.map (·.opened n left)) (a'.map (·.opened n (left + more))) := by
  cases h with
  | none => exact .none
  | @some found found' h =>
      obtain ⟨rfl, hwithin⟩ := h
      obtain ⟨_, ends, kept⟩ := found
      cases ends with
      | nil => exact .some ⟨rfl, hwithin⟩
      | cons stop ends =>
          refine .some ⟨by simp [Found.opened, Found.longer], fun k hk => ?_⟩
          rcases List.mem_cons.1 hk with rfl | hk
          · exact Nat.le_refl _
          · exact hwithin k hk

end Alike

/-- Whether the rest of a match comes to the same from all places in the text on. -/
def AlikeFrom (u tail : Text) (next next' : Cursor → Option Found) : Prop :=
  ∀ before before' w, w <:+ u → before.any Text.isWord = before'.any Text.isWord →
    Alike w.length tail.length (next ⟨before, w⟩) (next' ⟨before', w ++ tail⟩)

theorem AlikeFrom.of_suffix (hsuffix : t <:+ u) (h : AlikeFrom u tail next next') :
    AlikeFrom t tail next next' :=
  fun before before' w hw => h before before' w (hw.trans hsuffix)

-- ===================================================================== runs

section

variable (hword : Text.isWord s = false) (htail : ∀ c ∈ tail.head?, c = s)

include htail

theorem runMany_apart {ok : Char → Bool} (hok : ok s = false) (hnext : AlikeFrom u tail next next')
    (hbefore : before.any Text.isWord = before'.any Text.isWord) :
    Alike u.length tail.length (runMany ok next before u) (runMany ok next' before' (u ++ tail)) := by
  induction u generalizing before before' with
  | nil =>
      have hhere := hnext before before' [] (List.suffix_refl _) hbefore
      cases tail with
      | nil => exact hhere
      | cons c tail =>
          obtain rfl := htail c rfl
          rw [List.nil_append, runMany, runMany, if_neg (by simp [hok])]
          exact hhere
  | cons c u ih =>
      have hhere := hnext before before' (c :: u) (List.suffix_refl _) hbefore
      rw [List.cons_append, runMany, runMany]
      by_cases hc : ok c
      · have hrest : Alike u.length tail.length (runMany ok next (some c) u)
            (runMany ok next' (some c) (u ++ tail)) :=
          ih (hnext.of_suffix (List.suffix_cons c u)) rfl
        rw [if_pos hc, if_pos hc]
        exact (hrest.mono (Nat.le_succ _)).orElse hhere
      · rw [if_neg hc, if_neg hc]
        exact hhere

theorem runFew_apart {ok : Char → Bool} (hok : ok s = false) (hnext : AlikeFrom u tail next next')
    (hbefore : before.any Text.isWord = before'.any Text.isWord) :
    Alike u.length tail.length (runFew ok next before u) (runFew ok next' before' (u ++ tail)) := by
  induction u generalizing before before' with
  | nil =>
      have hhere := hnext before before' [] (List.suffix_refl _) hbefore
      cases tail with
      | nil => exact hhere
      | cons c tail =>
          obtain rfl := htail c rfl
          rw [List.nil_append, runFew, runFew, if_neg (by simp [hok])]
          exact hhere
  | cons c u ih =>
      have hhere := hnext before before' (c :: u) (List.suffix_refl _) hbefore
      rw [List.cons_append, runFew, runFew]
      by_cases hc : ok c
      · have hrest : Alike u.length tail.length (runFew ok next (some c) u)
            (runFew ok next' (some c) (u ++ tail)) :=
          ih (hnext.of_suffix (List.suffix_cons c u)) rfl
        rw [if_pos hc, if_pos hc]
        exact hhere.orElse (hrest.mono (Nat.le_succ _))
      · rw [if_neg hc, if_neg hc]
        exact hhere

theorem runOne_apart {ok : Char → Bool} (hok : ok s = false) (hnext : AlikeFrom u tail next next') :
    Alike u.length tail.length ((one ok).run ⟨before, u⟩ next) ((one ok).run ⟨before', u ++ tail⟩ next') := by
  cases u with
  | nil =>
      cases tail with
      | nil => exact .none
      | cons c tail =>
          obtain rfl := htail c rfl
          show Alike _ _ none (if ok c then _ else none)
          rw [if_neg (by simp [hok])]
          exact .none
  | cons c u =>
      show Alike _ _ (if ok c then next ⟨some c, u⟩ else none)
        (if ok c then next' ⟨some c, u ++ tail⟩ else none)
      by_cases hc : ok c
      · rw [if_pos hc, if_pos hc]
        exact (hnext _ _ u (List.suffix_cons c u) rfl).mono (Nat.le_succ _)
      · rw [if_neg hc, if_neg hc]
        exact .none

include hword

/-- The character is no part of a word, and so is the end of the text. -/
theorem atBoundary_apart (hbefore : before.any Text.isWord = before'.any Text.isWord) :
    (Cursor.mk before u).atBoundary = (Cursor.mk before' (u ++ tail)).atBoundary := by
  have hahead : u.head?.any Text.isWord = (u ++ tail).head?.any Text.isWord := by
    cases u with
    | nil =>
        cases tail with
        | nil => rfl
        | cons c tail =>
            obtain rfl := htail c rfl
            exact hword.symm
    | cons c u => rfl
  rw [Cursor.atBoundary, Cursor.atBoundary, hbefore, hahead]

/-- In front of the character a pattern runs as at the end of the text. -/
theorem run_apart (hspares : p.spares s) (hnext : AlikeFrom u tail next next')
    (hbefore : before.any Text.isWord = before'.any Text.isWord) :
    Alike u.length tail.length (p.run ⟨before, u⟩ next) (p.run ⟨before', u ++ tail⟩ next') := by
  induction p generalizing u before before' next next' with
  | empty => exact hnext _ _ _ (List.suffix_refl _) hbefore
  | one ok => exact runOne_apart htail ((Bool.not_eq_true' _).mp hspares) hnext
  | many ok => exact runMany_apart htail ((Bool.not_eq_true' _).mp hspares) hnext hbefore
  | few ok => exact runFew_apart htail ((Bool.not_eq_true' _).mp hspares) hnext hbefore
  | seq first second ihFirst ihSecond =>
      obtain ⟨hfirst, hsecond⟩ := Bool.and_eq_true_iff.1 hspares
      refine ihFirst hfirst (fun b b' w hw hb => ?_) hbefore
      exact ihSecond hsecond (hnext.of_suffix hw) hb
  | alt first second ihFirst ihSecond =>
      obtain ⟨hfirst, hsecond⟩ := Bool.and_eq_true_iff.1 hspares
      exact (ihFirst hfirst hnext hbefore).orElse (ihSecond hsecond hnext hbefore)
  | capture n body ih =>
      have hbody : Alike u.length tail.length
          (body.run ⟨before, u⟩ fun stop => (next stop).map (·.closed stop.rest.length))
          (body.run ⟨before', u ++ tail⟩ fun stop => (next' stop).map (·.closed stop.rest.length)) := by
        refine ih hspares (fun b b' w hw hb => ?_) hbefore
        rw [List.length_append]
        exact (hnext b b' w hw hb).closed w.length
      show Alike _ _ (Option.map (fun found : Found => found.opened n u.length) _)
        (Option.map (fun found : Found => found.opened n (u ++ tail).length) _)
      rw [List.length_append]
      exact hbody.opened n
  | lineStart | lineEnd | textEnd => cases hspares
  | boundary =>
      have hhere := hnext before before' u (List.suffix_refl _) hbefore
      show Alike _ _ (if _ then _ else _) (if _ then _ else _)
      rw [← atBoundary_apart hword htail hbefore]
      by_cases hb : (Cursor.mk before u).atBoundary
      · rw [if_pos hb, if_pos hb]
        exact hhere
      · rw [if_neg hb, if_neg hb]
        exact .none

-- =================================================================== matches

/-- In front of the character there is the match that there is at the end of the text. -/
theorem matchAt_apart (hspares : p.spares s)
    (hbefore : before.any Text.isWord = before'.any Text.isWord) :
    p.matchAt ⟨before', u ++ tail⟩ = p.matchAt ⟨before, u⟩ := by
  have hrun : Alike u.length tail.length (p.runAt ⟨before, u⟩) (p.runAt ⟨before', u ++ tail⟩) := by
    refine run_apart hword htail hspares (fun _ _ w _ _ => .some ⟨?_, ?_⟩) hbefore
    · simp [Found.ending, Found.longer]
    · simp [Found.ending, Found.Within]
  unfold matchAt
  generalize p.runAt ⟨before, u⟩ = a at hrun ⊢
  generalize p.runAt ⟨before', u ++ tail⟩ = a' at hrun ⊢
  cases hrun with
  | none => rfl
  | @some found found' h =>
      obtain ⟨rfl, hwithin⟩ := h
      have htext : (u ++ tail).take (u.length - found.left) = u.take (u.length - found.left) :=
        List.take_append_of_le_length (Nat.sub_le _ _)
      have hkept : ∀ k ∈ found.kept,
          ((u ++ tail).drop (u.length - k.2.1)).take (k.2.1 - k.2.2)
            = (u.drop (u.length - k.2.1)).take (k.2.1 - k.2.2) := by
        intro k hk
        have hle := hwithin k hk
        rw [List.drop_append_of_le_length (Nat.sub_le _ _)]
        refine List.take_append_of_le_length ?_
        rw [List.length_drop]
        omega
      simp only [Option.map_some, Found.hit, Found.longer, List.length_append, Nat.add_sub_add_right,
        List.map_map, htext, Option.some.injEq, Hit.mk.injEq, true_and]
      refine List.map_congr_left fun k hk => Prod.ext rfl ?_
      simp only [Function.comp, Nat.add_sub_add_right]
      exact hkept k hk

end

-- ================================================================= rewriting

/-- A text falls into pieces on both sides of the character. -/
theorem piecesFrom_append (hspares : p.spares s) (hword : Text.isWord s = false)
    (hne : ∀ before t h, p.matchAt ⟨before, t⟩ = some h → h.text ≠ []) {skip : Nat}
    (hskip : skip ≤ u.length) :
    p.piecesFrom skip before (u ++ s :: t)
      = p.piecesFrom skip before u ++ .plain s :: p.piecesFrom 0 (some s) t := by
  have hhere : ∀ before u, p.matchAt ⟨before, u ++ s :: t⟩ = p.matchAt ⟨before, u⟩ := fun before u =>
    matchAt_apart hword (by simp) hspares rfl
  induction u generalizing before skip with
  | nil =>
      obtain rfl : skip = 0 := Nat.le_zero.1 hskip
      have hnone : p.matchAt ⟨before, s :: t⟩ = none := by
        have hend := hhere before []
        rw [List.nil_append] at hend
        rw [hend]
        refine Option.eq_none_iff_forall_ne_some.2 fun hit hmatch => ?_
        obtain ⟨rest, htext, -⟩ := matchAt_sound hmatch
        exact hne _ _ _ hmatch (List.append_eq_nil_iff.1 htext.symm).1
      show p.piecesFrom 0 before (s :: t) = .plain s :: p.piecesFrom 0 (some s) t
      rw [piecesFrom, hnone]
  | cons c u ih =>
      cases skip with
      | succ skip => exact ih (Nat.le_of_succ_le_succ hskip)
      | zero =>
          have hsame := hhere before (c :: u)
          rw [List.cons_append] at hsame ⊢
          rw [piecesFrom, piecesFrom, hsame]
          cases hmatch : p.matchAt ⟨before, c :: u⟩ with
          | none => exact congrArg (.plain c :: ·) (ih (Nat.zero_le _))
          | some hit =>
              obtain ⟨rest, htext, -⟩ := matchAt_sound hmatch
              have hlength := congrArg List.length htext
              rw [List.length_cons, List.length_append] at hlength
              have hskip : hit.text.length - 1 ≤ u.length := by omega
              exact congrArg (.hit hit :: ·) (ih hskip)

/-- A text is rewritten on both sides of the character. -/
theorem rewrite_append (hspares : p.spares s) (hword : Text.isWord s = false)
    (hne : ∀ before t h, p.matchAt ⟨before, t⟩ = some h → h.text ≠ []) (write : Hit → Text) :
    p.rewrite write (u ++ s :: t) = p.rewrite write u ++ s :: p.rewrite write t := by
  have hstart : ∀ (skip : Nat) (before before' : Option Char) (t : Text),
      before.any Text.isWord = before'.any Text.isWord →
        p.piecesFrom skip before t = p.piecesFrom skip before' t := by
    intro skip before before' t hbefore
    cases t with
    | nil => cases skip <;> rfl
    | cons c t =>
        cases skip with
        | succ skip => rfl
        | zero =>
            have hsame : p.matchAt ⟨before', c :: t ++ []⟩ = p.matchAt ⟨before, c :: t⟩ :=
              matchAt_apart hword (by simp) hspares hbefore
            rw [List.append_nil] at hsame
            rw [piecesFrom, piecesFrom, hsame]
  rw [rewrite, rewrite, rewrite, pieces_eq, pieces_eq, pieces_eq,
    piecesFrom_append hspares hword hne (Nat.zero_le _), List.flatMap_append, List.flatMap_cons,
    hstart 0 (some s) none t hword]
  rfl

end SiteScaffold.Pattern

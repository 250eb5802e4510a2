/-
Runs of newlines. Taking an action out cuts every run of three newlines or more to two, by a
search for such runs. The same is said here by a walk over the characters that counts newlines
and keeps no more than two side by side (`cutRuns`, `collapseBlankRuns_eq`).

Of the lines of a text only empty ones go (`filter_wholeLines_cutRuns`). The induction is on the
text, from the start of a line or from within one; within one no newline stands in front.
-/
import SiteScaffold.Proofs.Patch.ControllerAction

namespace SiteScaffold

open Text (wholeLines)

variable {a t rest : Text}

namespace Text

/-- A text of which every run of newlines is cut to two, where some newlines stand in front. -/
def cutRuns : (run : Nat) → Text → Text
  | _, [] => []
  | run, c :: t =>
    if c = '\n' then if run < 2 then c :: cutRuns (run + 1) t else cutRuns (run + 1) t
    else c :: cutRuns 0 t

theorem cutRuns_cons {c : Char} (hc : c ≠ '\n') (run : Nat) : cutRuns run (c :: t) = c :: cutRuns 0 t := by
  rw [cutRuns, if_neg hc]

/-- Newlines in front do not matter where none stands. -/
theorem cutRuns_of_head (ht : '\n' ∉ t.head?) (run : Nat) : cutRuns run t = cutRuns 0 t := by
  cases t with
  | nil => rfl
  | cons c t =>
      have hc : c ≠ '\n' := by simpa using ht
      rw [cutRuns_cons hc, cutRuns_cons hc]

/-- Of a run as many newlines are kept as make two with those in front. -/
theorem cutRuns_replicate (hrest : '\n' ∉ rest.head?) (k run : Nat) :
    cutRuns run (List.replicate k '\n' ++ rest) = List.replicate (min k (2 - run)) '\n' ++ cutRuns 0 rest := by
  induction k generalizing run with
  | zero =>
      rw [Nat.zero_min]
      exact cutRuns_of_head hrest run
  | succ k ih =>
      rw [List.replicate_succ, List.cons_append, cutRuns, if_pos rfl, ih]
      by_cases hrun : run < 2
      · have hkept : min (k + 1) (2 - run) = min k (2 - (run + 1)) + 1 := by omega
        rw [if_pos hrun, hkept, List.replicate_succ]
        rfl
      · have hkept : min (k + 1) (2 - run) = min k (2 - (run + 1)) := by omega
        rw [if_neg hrun, hkept]

/-- A text starts with as many newlines as there are. -/
theorem exists_newlines (t : Text) : ∃ k rest, t = List.replicate k '\n' ++ rest ∧ '\n' ∉ rest.head? := by
  induction t with
  | nil => exact ⟨0, [], rfl, by simp⟩
  | cons c t ih =>
      by_cases hc : c = '\n'
      · obtain ⟨k, rest, rfl, hrest⟩ := ih
        exact ⟨k + 1, rest, by rw [hc]; rfl, hrest⟩
      · exact ⟨0, c :: t, rfl, by simpa using hc⟩

/-- Lines that are not empty stay, in their order. -/
theorem filter_wholeLines_cutRuns (run : Nat) (ha : '\n' ∉ a) (hrun : a ≠ [] → run = 0) (t : Text) :
    (wholeLines (a ++ cutRuns run t)).filter (· ≠ ['\n']) = (wholeLines (a ++ t)).filter (· ≠ ['\n']) := by
  induction t generalizing a run with
  | nil => rfl
  | cons c t ih =>
      by_cases hc : c = '\n'
      · subst hc
        have hnext := ih (a := []) (run + 1) (by simp) (fun h => absurd rfl h)
        rw [List.nil_append, List.nil_append] at hnext
        rw [cutRuns, if_pos rfl]
        by_cases hshort : run < 2
        · rw [if_pos hshort, List.append_cons a '\n' (cutRuns (run + 1) t), List.append_cons a '\n' t,
            wholeLines_append endsLine_newline, wholeLines_append endsLine_newline, List.filter_append,
            List.filter_append, hnext]
        · -- a newline that goes stands behind another one, on a line of its own
          have hnil : a = [] := Decidable.byContradiction fun hne => hshort (by rw [hrun hne]; decide)
          rw [if_neg hshort, hnil, List.nil_append, List.nil_append, wholeLines_newline, hnext]
          rfl
      · rw [cutRuns_cons hc, List.append_cons a c (cutRuns 0 t), List.append_cons a c t]
        refine ih 0 ?_ fun _ => rfl
        rw [List.mem_append, not_or]
        exact ⟨ha, by simpa using Ne.symm hc⟩

end Text

namespace Patch.ControllerAction

open Pattern

/-- A run of newlines in front of another character is a match if it is long enough. -/
theorem prefers_blankRun {before : Option Char} (k : Nat) (hrest : '\n' ∉ rest.head?) :
    blankRun.Prefers before ("\n\n\n".toList ++ List.replicate k '\n') rest := by
  refine prefers_append (prefers_literal _) (prefers_many (by simp) fun c hc => ?_)
  have hne : c ≠ '\n' := by
    rintro rfl
    exact hrest hc
  simpa using hne

/-- In a run of two newlines none is found. -/
theorem clear_blankRun {before : Option Char} {k : Nat} (hk : k < 3) (hrest : '\n' ∉ rest.head?) :
    blankRun.Clear before (List.replicate k '\n') rest := by
  rw [clear_iff]
  intro u v htext _ hstart
  obtain ⟨s, heq, -⟩ := startsAt_literal_append.1 hstart
  have hv : v = List.replicate v.length '\n' := by
    refine List.eq_replicate_of_mem fun c hc => ?_
    exact List.eq_of_mem_replicate (htext ▸ List.mem_append_right u hc)
  have hlength : v.length < 3 := by
    have hlen := congrArg List.length htext
    rw [List.length_replicate, List.length_append] at hlen
    omega
  generalize v.length = n at hv hlength
  subst hv
  have hhead : ∃ r, rest = '\n' :: r := by
    match n, hlength with
    | 0, _ => exact ⟨_, heq⟩
    | 1, _ => exact ⟨_, (List.cons_eq_cons.1 heq).2⟩
    | 2, _ => exact ⟨_, (List.cons_eq_cons.1 (List.cons_eq_cons.1 heq).2).2⟩
  obtain ⟨r, rfl⟩ := hhead
  exact hrest rfl

/-- Collapsing runs of newlines is the walk that keeps no more than two side by side. -/
theorem collapseBlankRuns_eq (t : Text) : collapseBlankRuns t = Text.cutRuns 0 t := by
  refine Rewritten.rewrite_eq ?_
  generalize none = before
  -- on the length: a run is gone through at once
  induction hlen : t.length using Nat.strongRecOn generalizing before t with
  | ind n ih =>
      obtain ⟨k, rest, rfl, hrest⟩ := Text.exists_newlines t
      rw [List.length_append, List.length_replicate] at hlen
      have hbehind : ∀ before, Rewritten blankRun (fun _ => "\n\n".toList) before rest (Text.cutRuns 0 rest) := by
        intro before
        cases rest with
        | nil => exact .nil before
        | cons c rest =>
            have hc : c ≠ '\n' := by simpa using hrest
            have htail := ih rest.length (by simp at hlen; omega) rest (some c) rfl
            rw [Text.cutRuns_cons hc]
            refine .plain before c rest _ (matchAt_eq_none_iff_not_startsAt.2 fun hstart => ?_) htail
            obtain ⟨s, heq, -⟩ := startsAt_literal_append.1 hstart
            exact hc (List.cons_eq_cons.1 heq).1
      rw [Text.cutRuns_replicate hrest]
      by_cases hk : k < 3
      · rw [Nat.min_eq_left (by omega)]
        exact (hbehind _).clear (clear_blankRun hk hrest)
      · obtain ⟨j, rfl⟩ : ∃ j, k = 3 + j := ⟨k - 3, by omega⟩
        have hprefers : blankRun.Prefers before ("\n\n\n".toList ++ List.replicate j '\n') rest :=
          prefers_blankRun j hrest
        obtain ⟨hit, hmatch, htext⟩ := matchAt_of_prefers hprefers
        have hrun : List.replicate (3 + j) '\n' = hit.text := by
          rw [htext, ← List.replicate_append_replicate]
          rfl
        rw [← htext] at hmatch
        rw [hrun, Nat.min_eq_right (by omega)]
        exact .hit before hit rest _ (by simp [htext]) hmatch (hbehind _)

end Patch.ControllerAction

end SiteScaffold

/-
Which way through a pattern a run takes. `Prefers` says of one way that the run
takes it whenever the rest of the match works out after it: the longest greedy
run, the shortest lazy run, the earlier alternative. The way through a sequence
is put together from the ways through its parts (`prefers_append`), so the match
of a pattern at a text that is known piece by piece is found without running it.

At a single place a preferred way is the hit (`matchAt_of_prefers`).
-/
import SiteScaffold.Proofs.Pattern.Matches

namespace SiteScaffold.Pattern

variable {before : Option Char} {t u rest : Text}

/-- If the match goes on after the text `t`, a run of the pattern passes over `t`
and nothing else. -/
def Prefers (p : Pattern) (before : Option Char) (t rest : Text) : Prop :=
  ∀ (next : Cursor → Option Found) (later : Found),
    next ⟨lastAfter before t, rest⟩ = some later →
      ∃ found, p.run ⟨before, t ++ rest⟩ next = some found ∧ found.left = later.left

-- ============================================================= constructions

theorem prefers_empty : empty.Prefers before [] rest :=
  fun _ later h => ⟨later, h, rfl⟩

theorem prefers_one {ok : Char → Bool} {c : Char} (hc : ok c) :
    (one ok).Prefers before [c] rest := by
  intro next later h
  refine ⟨later, ?_, rfl⟩
  simpa [run, hc] using h

/-- A greedy run is preferred if it cannot be longer. -/
theorem prefers_many {ok : Char → Bool} (hall : ∀ c ∈ t, ok c)
    (hstop : ∀ c ∈ rest.head?, ok c = false) : (many ok).Prefers before t rest := by
  intro next later h
  refine ⟨later, ?_, rfl⟩
  show runMany ok next before (t ++ rest) = some later
  induction t generalizing before with
  | nil =>
      cases rest with
      | nil => exact h
      | cons c rest =>
          have hc : ok c = false := hstop c rfl
          rw [List.nil_append, runMany_cons, if_neg (by simp [hc])]
          exact h
  | cons c t ih =>
      have hc : ok c := hall c (List.mem_cons_self ..)
      have hlong := ih (fun d hd => hall d (List.mem_cons_of_mem _ hd)) h
      rw [List.cons_append, runMany_cons, if_pos hc, hlong]
      rfl

/-- The empty lazy run is preferred. -/
theorem prefers_few {ok : Char → Bool} : (few ok).Prefers before [] rest := by
  intro next later h
  refine ⟨later, ?_, rfl⟩
  show runFew ok next before rest = some later
  cases rest with
  | nil => exact h
  | cons c rest =>
      have hstop : next ⟨before, c :: rest⟩ = some later := h
      rw [runFew_cons]
      split
      · rw [hstop]
        rfl
      · exact hstop

theorem prefers_append {first second : Pattern} (hfirst : first.Prefers before t (u ++ rest))
    (hsecond : second.Prefers (lastAfter before t) u rest) :
    (first ++ second).Prefers before (t ++ u) rest := by
  intro next later h
  rw [lastAfter_append] at h
  obtain ⟨mid, hmid, hleft⟩ := hsecond next later h
  obtain ⟨found, hfound, hleft'⟩ := hfirst (fun here => second.run here next) mid hmid
  refine ⟨found, ?_, hleft'.trans hleft⟩
  rw [List.append_assoc]
  exact hfound

theorem prefers_assoc {first second third : Pattern} : ((first ++ second) ++ third).Prefers before t rest
    ↔ (first ++ (second ++ third)).Prefers before t rest := Iff.rfl

/-- Where a pattern cannot be read, a run of it fails. -/
theorem run_eq_none {p : Pattern} (h : ¬ p.StartsAt before t) (next : Cursor → Option Found) :
    p.run ⟨before, t⟩ next = none := by
  refine Option.eq_none_iff_forall_ne_some.2 fun found hrun => ?_
  obtain ⟨u, rest, kept, -, htext, haccepts, -⟩ := run_sound hrun
  exact h ⟨u, rest, htext, kept, haccepts⟩

/-- A greedy run fails if what comes next fails at all its ends. -/
theorem runMany_eq_none {ok : Char → Bool} {next : Cursor → Option Found}
    (h : ∀ s w, t = s ++ w → (∀ c ∈ s, ok c) → next ⟨lastAfter before s, w⟩ = none) :
    runMany ok next before t = none := by
  induction t generalizing before with
  | nil => exact h [] [] rfl (by simp)
  | cons c t ih =>
      have hhere : next ⟨before, c :: t⟩ = none := h [] (c :: t) rfl (by simp)
      rw [runMany_cons]
      by_cases hc : ok c
      · have hlater : runMany ok next (some c) t = none := ih fun s w htext hs =>
          h (c :: s) w (by rw [htext]; rfl) (by simpa [hc] using hs)
        rw [if_pos hc, hlater, hhere]
        rfl
      · rw [if_neg hc, hhere]

/-- A greedy run goes back to the last place where the pattern behind it can be read. -/
theorem prefers_many_append {ok : Char → Bool} {q : Pattern} (hall : ∀ c ∈ t, ok c)
    (hlater : ∀ s w, u ++ rest = s ++ w → s ≠ [] → (∀ c ∈ s, ok c) →
      ¬ q.StartsAt (lastAfter before (t ++ s)) w)
    (hq : q.Prefers (lastAfter before t) u rest) : (many ok ++ q).Prefers before (t ++ u) rest := by
  intro next later h
  rw [lastAfter_append] at h
  obtain ⟨found, hfound, hleft⟩ := hq next later h
  refine ⟨found, ?_, hleft⟩
  show runMany ok (fun here => q.run here next) before ((t ++ u) ++ rest) = some found
  rw [List.append_assoc]
  clear h hq
  induction t generalizing before with
  | nil =>
      rw [lastAfter_nil] at hfound
      rw [List.nil_append]
      cases hrest : u ++ rest with
      | nil =>
          rw [hrest] at hfound
          exact hfound
      | cons c r =>
          rw [hrest] at hfound
          rw [runMany_cons, hfound]
          by_cases hc : ok c
          · have hnone : runMany ok (fun here => q.run here next) (some c) r = none := by
              refine runMany_eq_none fun s w htext hs => run_eq_none ?_ next
              exact hlater (c :: s) w (by rw [hrest, htext]; rfl) (by simp) (by simpa [hc] using hs)
            rw [if_pos hc, hnone]
            rfl
          · rw [if_neg hc]
  | cons c t ih =>
      have htail := ih (fun d hd => hall d (List.mem_cons_of_mem _ hd)) hlater hfound
      rw [List.cons_append, runMany_cons, if_pos (hall c (List.mem_cons_self ..)), htail]
      rfl

/-- A lazy run goes on to the first place where the pattern behind it can be read. -/
theorem prefers_few_append {ok : Char → Bool} {q : Pattern} (hall : ∀ c ∈ t, ok c)
    (hlater : ∀ s v, t = s ++ v → v ≠ [] → ¬ q.StartsAt (lastAfter before s) (v ++ (u ++ rest)))
    (hq : q.Prefers (lastAfter before t) u rest) : (few ok ++ q).Prefers before (t ++ u) rest := by
  intro next later h
  rw [lastAfter_append] at h
  obtain ⟨found, hfound, hleft⟩ := hq next later h
  refine ⟨found, ?_, hleft⟩
  show runFew ok (fun here => q.run here next) before ((t ++ u) ++ rest) = some found
  rw [List.append_assoc]
  clear h hq
  induction t generalizing before with
  | nil =>
      rw [lastAfter_nil] at hfound
      rw [List.nil_append]
      cases hrest : u ++ rest with
      | nil =>
          rw [hrest] at hfound
          exact hfound
      | cons c r =>
          rw [hrest] at hfound
          rw [runFew_cons, hfound]
          split
          · rfl
          · rfl
  | cons c t ih =>
      have hnone := run_eq_none (hlater [] (c :: t) rfl (by simp)) next
      have htail := ih (fun d hd => hall d (List.mem_cons_of_mem _ hd))
        (fun s v hsplit => hlater (c :: s) v (by rw [hsplit]; rfl)) hfound
      rw [lastAfter_nil, List.cons_append] at hnone
      rw [List.cons_append, runFew_cons, if_pos (hall c (List.mem_cons_self ..)), hnone]
      exact htail

theorem prefers_or_left {first second : Pattern} (hfirst : first.Prefers before t rest) :
    (first ||| second).Prefers before t rest := by
  intro next later h
  obtain ⟨found, hfound, hleft⟩ := hfirst next later h
  refine ⟨found, ?_, hleft⟩
  show (first.run ⟨before, t ++ rest⟩ next <|> second.run ⟨before, t ++ rest⟩ next) = some found
  rw [hfound]
  rfl

/-- The second alternative is preferred where the first cannot be read. -/
theorem prefers_or_right {first second : Pattern}
    (hfirst : ∀ v w, t ++ rest = v ++ w → ¬ first.Matches before v w)
    (hsecond : second.Prefers before t rest) : (first ||| second).Prefers before t rest := by
  intro next later h
  obtain ⟨found, hfound, hleft⟩ := hsecond next later h
  refine ⟨found, ?_, hleft⟩
  show (first.run ⟨before, t ++ rest⟩ next <|> second.run ⟨before, t ++ rest⟩ next) = some found
  have hnone : first.run ⟨before, t ++ rest⟩ next = none :=
    run_eq_none (fun ⟨v, w, htext, hmatches⟩ => hfirst v w htext hmatches) next
  rw [hnone, hfound]
  rfl

theorem prefers_capture {n : Nat} {p : Pattern} (h : p.Prefers before t rest) :
    (capture n p).Prefers before t rest := by
  intro next later hnext
  obtain ⟨found, hfound, hleft⟩ := h (fun stop => (next stop).map (·.closed stop.rest.length))
    (later.closed rest.length) (by rw [hnext]; rfl)
  refine ⟨found.opened n (t ++ rest).length, ?_, ?_⟩
  · show (p.run ⟨before, t ++ rest⟩ _).map _ = _
    rw [hfound]
    rfl
  · have hopened : (found.opened n (t ++ rest).length).left = found.left := by
      unfold Found.opened
      split
      · rfl
      · rfl
    rw [hopened, hleft]
    rfl

theorem prefers_lineStart (h : before.all (· = '\n')) : lineStart.Prefers before [] rest := by
  intro next later hnext
  refine ⟨later, ?_, rfl⟩
  have hat : (Cursor.mk before rest).atLineStart := h
  show (if (Cursor.mk before rest).atLineStart then next ⟨before, rest⟩ else none) = some later
  rw [if_pos hat]
  exact hnext

theorem prefers_lineEnd (h : rest.head?.all (· = '\n')) : lineEnd.Prefers before [] rest := by
  intro next later hnext
  refine ⟨later, ?_, rfl⟩
  have hat : (Cursor.mk before rest).atLineEnd := h
  show (if (Cursor.mk before rest).atLineEnd then next ⟨before, rest⟩ else none) = some later
  rw [if_pos hat]
  exact hnext

theorem prefers_textEnd : textEnd.Prefers before [] [] :=
  fun _ later hnext => ⟨later, hnext, rfl⟩

theorem prefers_boundary (h : before.any Text.isWord != rest.head?.any Text.isWord) :
    boundary.Prefers before [] rest := by
  intro next later hnext
  refine ⟨later, ?_, rfl⟩
  have hat : (Cursor.mk before rest).atBoundary := h
  show (if (Cursor.mk before rest).atBoundary then next ⟨before, rest⟩ else none) = some later
  rw [if_pos hat]
  exact hnext

-- ==================================================================== phrases

theorem prefers_literal (s : Text) : (literal s).Prefers before s rest := by
  induction s generalizing before with
  | nil => exact prefers_empty
  | cons c s ih =>
      cases s with
      | nil => exact prefers_one (by simp)
      | cons d s => exact prefers_append (prefers_one (by simp)) ih

theorem prefers_optional {p : Pattern} (h : p.Prefers before t rest) :
    (optional p).Prefers before t rest :=
  prefers_or_left h

/-- An optional part is passed by where it cannot be read. -/
theorem prefers_optional_nil {p : Pattern}
    (h : ∀ v w, rest = v ++ w → ¬ p.Matches before v w) : (optional p).Prefers before [] rest :=
  prefers_or_right h prefers_empty

theorem prefers_oneOrMore {ok : Char → Bool} (hne : t ≠ []) (hall : ∀ c ∈ t, ok c)
    (hstop : ∀ c ∈ rest.head?, ok c = false) : (oneOrMore ok).Prefers before t rest := by
  obtain ⟨c, v, rfl⟩ := List.exists_cons_of_ne_nil hne
  have hc : ok c := hall c (List.mem_cons_self ..)
  exact prefers_append (t := [c]) (prefers_one hc)
    (prefers_many (fun d hd => hall d (List.mem_cons_of_mem _ hd)) hstop)

/-- A newline with no carriage return before it. -/
theorem prefers_newline : newline.Prefers before ['\n'] rest := by
  have hreturn : (optional (literal "\r".toList)).Prefers before [] ('\n' :: rest) := by
    refine prefers_optional_nil fun v w htext hmatches => ?_
    rw [matches_literal.1 hmatches] at htext
    simp at htext
  exact prefers_append hreturn (prefers_literal ['\n'])

/-- A newline is what it is, whatever stands around it. -/
theorem prefers_newline_of_matches {before' : Option Char} {rest' : Text}
    (h : newline.Matches before t rest) : newline.Prefers before' t rest' := by
  rcases matches_newline.1 h with rfl | rfl
  · exact prefers_append (t := ['\r']) (prefers_optional (prefers_literal _)) (prefers_literal _)
  · exact prefers_newline

theorem prefers_lineBreak : lineBreak.Prefers before ['\n'] rest :=
  prefers_or_left (prefers_literal ['\n'])

/-- The end of the text ends a line, too. -/
theorem prefers_lineBreak_textEnd : lineBreak.Prefers before [] [] := by
  refine prefers_or_right (fun v w hnil hmatches => ?_) prefers_textEnd
  rw [matches_literal.1 hmatches] at hnil
  simp at hnil

/-- A newline followed by an empty line. -/
theorem prefers_lineBreakAndBlank : lineBreakAndBlank.Prefers before "\n\n".toList rest := by
  have hblank : (optional (spacing ++ newline)).Prefers (some '\n') ['\n'] rest :=
    prefers_optional (prefers_append (t := []) (prefers_many (by simp) (by simp [isSpacing])) prefers_newline)
  exact prefers_or_left (prefers_append (prefers_literal ['\n']) hblank)

-- ====================================================== at a single place

/-- A preferred way is the hit. -/
theorem matchAt_of_prefers {p : Pattern} (h : p.Prefers before t rest) :
    ∃ hit, p.matchAt ⟨before, t ++ rest⟩ = some hit ∧ hit.text = t := by
  obtain ⟨found, hrun, hleft⟩ := h (fun stop => some (.ending stop.rest.length))
    (.ending rest.length) rfl
  refine ⟨found.hit (t ++ rest).length (t ++ rest), ?_, ?_⟩
  · rw [matchAt, runAt, hrun]
    rfl
  · have hstop : found.left = rest.length := hleft
    simp [Found.hit, hstop]

end SiteScaffold.Pattern

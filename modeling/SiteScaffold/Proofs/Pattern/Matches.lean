/-
Equations for `Matches` and `Accepts`, one for each way of building a pattern and
for each small phrase the program's patterns share. A fact about what a pattern
matches is got by rewriting with these equations, after which nothing of the
pattern is left but the texts it is made of; no proof unfolds `Accepts`.

Captures are read off separately. A pattern without captures keeps nothing
(`accepts_iff`), so that only the `capture` itself shows in what is kept.
-/
import SiteScaffold.Proofs.Pattern.Accepts

namespace SiteScaffold.Pattern

variable {before : Option Char} {t rest : Text}

-- ========================================================= without captures

/-- Whether no part of the pattern is captured. -/
def captureFree : Pattern → Bool
  | seq first second | alt first second => first.captureFree && second.captureFree
  | capture _ _ => false
  | _ => true

/-- A pattern without captures keeps nothing. -/
theorem eq_nil_of_accepts {p : Pattern} {kept : List (Nat × Text)} (hfree : p.captureFree)
    (h : p.Accepts before t rest kept) : kept = [] := by
  induction p generalizing before t rest kept with
  | empty => exact h.2
  | one ok => obtain ⟨c, -, -, hkept⟩ := h; exact hkept
  | many ok => exact h.2
  | few ok => exact h.2
  | seq first second ihFirst ihSecond =>
      obtain ⟨hfree₁, hfree₂⟩ := Bool.and_eq_true_iff.1 hfree
      obtain ⟨u, v, -, k, l, rfl, hfirst, hsecond⟩ := h
      rw [ihFirst hfree₁ hfirst, ihSecond hfree₂ hsecond]
      rfl
  | alt first second ihFirst ihSecond =>
      obtain ⟨hfree₁, hfree₂⟩ := Bool.and_eq_true_iff.1 hfree
      rcases h with h | h
      · exact ihFirst hfree₁ h
      · exact ihSecond hfree₂ h
  | capture n body ih => cases hfree
  | lineStart => exact h.2.1
  | lineEnd => exact h.2.1
  | textEnd => exact h.2.1
  | boundary => exact h.2.1

theorem accepts_iff {p : Pattern} {kept : List (Nat × Text)} (hfree : p.captureFree) :
    p.Accepts before t rest kept ↔ p.Matches before t rest ∧ kept = [] := by
  constructor
  · intro h
    exact ⟨⟨kept, h⟩, eq_nil_of_accepts hfree h⟩
  · rintro ⟨⟨kept', h⟩, rfl⟩
    rw [eq_nil_of_accepts hfree h] at h
    exact h

@[simp] theorem captureFree_append (first second : Pattern) :
    (first ++ second).captureFree = (first.captureFree && second.captureFree) := rfl

@[simp] theorem captureFree_or (first second : Pattern) :
    (first ||| second).captureFree = (first.captureFree && second.captureFree) := rfl

@[simp] theorem captureFree_literal (s : Text) : (literal s).captureFree = true := by
  induction s with
  | nil => rfl
  | cons c s ih =>
      cases s with
      | nil => rfl
      | cons d s => exact ih

-- ============================================================ constructions

theorem accepts_append {first second : Pattern} {kept : List (Nat × Text)} :
    (first ++ second).Accepts before t rest kept ↔
      ∃ u v, t = u ++ v ∧ ∃ k l, kept = k ++ l
        ∧ first.Accepts before u (v ++ rest) k ∧ second.Accepts (lastAfter before u) v rest l :=
  Iff.rfl

theorem accepts_capture {n : Nat} {body : Pattern} {kept : List (Nat × Text)} :
    (capture n body).Accepts before t rest kept ↔
      ∃ inner, kept = (n, t) :: inner ∧ body.Accepts before t rest inner :=
  Iff.rfl

@[simp] theorem matches_empty : empty.Matches before t rest ↔ t = [] := by
  simp [Matches, Accepts]

@[simp] theorem matches_one {ok : Char → Bool} :
    (one ok).Matches before t rest ↔ ∃ c, ok c ∧ t = [c] := by
  constructor
  · rintro ⟨kept, c, hc, ht, -⟩
    exact ⟨c, hc, ht⟩
  · rintro ⟨c, hc, ht⟩
    exact ⟨[], c, hc, ht, rfl⟩

@[simp] theorem matches_many {ok : Char → Bool} :
    (many ok).Matches before t rest ↔ ∀ c ∈ t, ok c := by
  simp [Matches, Accepts]

@[simp] theorem matches_few {ok : Char → Bool} :
    (few ok).Matches before t rest ↔ ∀ c ∈ t, ok c := by
  simp [Matches, Accepts]

@[simp] theorem matches_append {first second : Pattern} :
    (first ++ second).Matches before t rest ↔
      ∃ u v, t = u ++ v ∧ first.Matches before u (v ++ rest)
        ∧ second.Matches (lastAfter before u) v rest := by
  constructor
  · rintro ⟨kept, u, v, ht, k, l, -, hfirst, hsecond⟩
    exact ⟨u, v, ht, ⟨k, hfirst⟩, ⟨l, hsecond⟩⟩
  · rintro ⟨u, v, ht, ⟨k, hfirst⟩, ⟨l, hsecond⟩⟩
    exact ⟨k ++ l, u, v, ht, k, l, rfl, hfirst, hsecond⟩

@[simp] theorem matches_or {first second : Pattern} :
    (first ||| second).Matches before t rest ↔
      first.Matches before t rest ∨ second.Matches before t rest := by
  constructor
  · rintro ⟨kept, h | h⟩
    · exact .inl ⟨kept, h⟩
    · exact .inr ⟨kept, h⟩
  · rintro (⟨kept, h⟩ | ⟨kept, h⟩)
    · exact ⟨kept, .inl h⟩
    · exact ⟨kept, .inr h⟩

@[simp] theorem matches_capture {n : Nat} {body : Pattern} :
    (capture n body).Matches before t rest ↔ body.Matches before t rest := by
  constructor
  · rintro ⟨kept, inner, -, h⟩
    exact ⟨inner, h⟩
  · rintro ⟨kept, h⟩
    exact ⟨(n, t) :: kept, kept, rfl, h⟩

@[simp] theorem matches_lineStart :
    lineStart.Matches before t rest ↔ t = [] ∧ before.all (· = '\n') := by
  simp [Matches, Accepts]

@[simp] theorem matches_lineEnd :
    lineEnd.Matches before t rest ↔ t = [] ∧ rest.head?.all (· = '\n') := by
  simp [Matches, Accepts]

@[simp] theorem matches_textEnd : textEnd.Matches before t rest ↔ t = [] ∧ rest = [] := by
  simp [Matches, Accepts]

@[simp] theorem matches_boundary :
    boundary.Matches before t rest ↔
      t = [] ∧ (before.any Text.isWord != rest.head?.any Text.isWord) := by
  simp [Matches, Accepts]

-- ================================================================== phrases

@[simp] theorem matches_literal {s : Text} : (literal s).Matches before t rest ↔ t = s := by
  induction s generalizing before t with
  | nil => simp [literal]
  | cons c s ih =>
      cases s with
      | nil => simp [literal]
      | cons d s =>
          have hseq : literal (c :: d :: s) = one (· = c) ++ literal (d :: s) := rfl
          rw [hseq, matches_append]
          constructor
          · rintro ⟨u, v, rfl, hone, htail⟩
            obtain ⟨c', hc', rfl⟩ := matches_one.1 hone
            rw [ih.1 htail, of_decide_eq_true hc']
            rfl
          · rintro rfl
            exact ⟨[c], d :: s, rfl, by simp, ih.2 rfl⟩

@[simp] theorem matches_optional {p : Pattern} :
    (optional p).Matches before t rest ↔ p.Matches before t rest ∨ t = [] := by
  show (p ||| empty).Matches before t rest ↔ _
  rw [matches_or, matches_empty]

@[simp] theorem matches_oneOrMore {ok : Char → Bool} :
    (oneOrMore ok).Matches before t rest ↔ t ≠ [] ∧ ∀ c ∈ t, ok c := by
  rw [oneOrMore, matches_append]
  constructor
  · rintro ⟨u, v, rfl, hone, hmany⟩
    obtain ⟨c, hc, rfl⟩ := matches_one.1 hone
    refine ⟨by simp, ?_⟩
    simpa [hc] using matches_many.1 hmany
  · rintro ⟨hne, hall⟩
    obtain ⟨c, v, rfl⟩ := List.exists_cons_of_ne_nil hne
    refine ⟨[c], v, rfl, matches_one.2 ⟨c, hall c (by simp), rfl⟩, matches_many.2 ?_⟩
    exact fun d hd => hall d (List.mem_cons_of_mem _ hd)

@[simp] theorem matches_spacing : spacing.Matches before t rest ↔ ∀ c ∈ t, isSpacing c :=
  matches_many

@[simp] theorem matches_gap :
    gap.Matches before t rest ↔ t ≠ [] ∧ ∀ c ∈ t, Text.isBlank c :=
  matches_oneOrMore

@[simp] theorem matches_slack : slack.Matches before t rest ↔ ∀ c ∈ t, Text.isBlank c :=
  matches_many

@[simp] theorem matches_quote : quote.Matches before t rest ↔ ∃ q, isQuote q ∧ t = [q] :=
  matches_one

@[simp] theorem matches_quoted {s : Text} :
    (quoted s).Matches before t rest ↔
      ∃ q q', isQuote q ∧ isQuote q' ∧ t = q :: s ++ [q'] := by
  simp only [quoted, matches_append, matches_quote, matches_literal]
  constructor
  · rintro ⟨u, v, rfl, ⟨a, b, rfl, ⟨q, hq, rfl⟩, rfl⟩, ⟨q', hq', rfl⟩⟩
    exact ⟨q, q', hq, hq', rfl⟩
  · rintro ⟨q, q', hq, hq', rfl⟩
    exact ⟨q :: s, [q'], rfl, ⟨[q], s, rfl, ⟨q, hq, rfl⟩, rfl⟩, ⟨q', hq', rfl⟩⟩

/-- A tag goes up to the first `>`. -/
theorem matches_tag {lead : Text} : (literal lead ++ many (· ≠ '>') ++ ">").Matches before t rest ↔
    ∃ inside, t = lead ++ (inside ++ ['>']) ∧ '>' ∉ inside := by
  simp only [matches_append, matches_literal, matches_many]
  constructor
  · rintro ⟨_, _, rfl, ⟨_, inside, rfl, rfl, hinside⟩, rfl⟩
    refine ⟨inside, by simp, fun hmem => ?_⟩
    exact absurd (hinside _ hmem) (by decide)
  · rintro ⟨inside, rfl, hinside⟩
    refine ⟨_, ['>'], (List.append_assoc ..).symm, ⟨_, inside, rfl, rfl, fun c hc => ?_⟩, rfl⟩
    exact decide_eq_true (ne_of_mem_of_not_mem hc hinside)

@[simp] theorem matches_newline :
    newline.Matches before t rest ↔ t = "\r\n".toList ∨ t = ['\n'] := by
  simp only [newline, matches_append, matches_optional, matches_literal]
  constructor
  · rintro ⟨u, v, rfl, rfl | rfl, rfl⟩
    · exact .inl rfl
    · exact .inr rfl
  · rintro (rfl | rfl)
    · exact ⟨['\r'], ['\n'], rfl, .inl rfl, rfl⟩
    · exact ⟨[], ['\n'], rfl, .inr rfl, rfl⟩

-- ===================================================== where a match starts

/-- A match of the pattern starts at the place between `before` and `t`. -/
def StartsAt (p : Pattern) (before : Option Char) (t : Text) : Prop :=
  ∃ u rest, t = u ++ rest ∧ p.Matches before u rest

theorem matchAt_eq_none_iff_not_startsAt {p : Pattern} :
    p.matchAt ⟨before, t⟩ = none ↔ ¬ p.StartsAt before t := by
  rw [matchAt_eq_none_iff]
  constructor
  · rintro h ⟨u, rest, htext, hmatches⟩
    exact h u rest htext hmatches
  · intro h u rest htext hmatches
    exact h ⟨u, rest, htext, hmatches⟩

theorem startsAt_or {p q : Pattern} : (p ||| q).StartsAt before t ↔ p.StartsAt before t ∨ q.StartsAt before t := by
  simp only [StartsAt, matches_or, and_or_left, exists_or]

theorem startsAt_append {first second : Pattern} :
    (first ++ second).StartsAt before t ↔
      ∃ u s, t = u ++ s ∧ first.Matches before u s ∧ second.StartsAt (lastAfter before u) s := by
  constructor
  · rintro ⟨w, rest, rfl, hmatches⟩
    obtain ⟨u, v, rfl, hfirst, hsecond⟩ := matches_append.1 hmatches
    exact ⟨u, v ++ rest, List.append_assoc .., hfirst, v, rest, rfl, hsecond⟩
  · rintro ⟨u, s, rfl, hfirst, v, rest, rfl, hsecond⟩
    exact ⟨u ++ v, rest, (List.append_assoc ..).symm, matches_append.2 ⟨u, v, rfl, hfirst, hsecond⟩⟩

theorem startsAt_literal_append {l : Text} {second : Pattern} :
    (literal l ++ second).StartsAt before t ↔
      ∃ s, t = l ++ s ∧ second.StartsAt (lastAfter before l) s := by
  rw [startsAt_append]
  constructor
  · rintro ⟨u, s, rfl, hfirst, hsecond⟩
    obtain rfl := matches_literal.1 hfirst
    exact ⟨s, rfl, hsecond⟩
  · rintro ⟨s, rfl, hsecond⟩
    exact ⟨l, s, rfl, matches_literal.2 rfl, hsecond⟩

/-- The rest of a line can be read everywhere. -/
theorem startsAt_restOfLine {p : Pattern} :
    (p ++ many inLine ++ lineBreak).StartsAt before t ↔ p.StartsAt before t := by
  constructor
  · rintro ⟨_, rest, rfl, hmatches⟩
    obtain ⟨_, v, rfl, hfront, -⟩ := matches_append.1 hmatches
    obtain ⟨u, w, rfl, hp, -⟩ := matches_append.1 hfront
    exact ⟨u, w ++ (v ++ rest), by simp, by simpa using hp⟩
  · rintro ⟨u, s, rfl, hp⟩
    have hsplit : s = s.takeWhile inLine ++ s.dropWhile inLine :=
      List.takeWhile_append_dropWhile.symm
    have hline : ∀ c ∈ s.takeWhile inLine, inLine c := List.all_eq_true.1 List.all_takeWhile
    have hbreak : lineBreak.StartsAt (lastAfter (lastAfter before u) (s.takeWhile inLine))
        (s.dropWhile inLine) := by
      cases hrest : s.dropWhile inLine with
      | nil => exact ⟨[], [], rfl, matches_or.2 (.inr (matches_textEnd.2 ⟨rfl, rfl⟩))⟩
      | cons c rest =>
          have hc : inLine c = false := by
            have hhead := List.head?_dropWhile_not inLine s
            rw [hrest] at hhead
            simpa using hhead
          obtain rfl : c = '\n' := by simpa [inLine] using hc
          exact ⟨['\n'], rest, rfl, matches_or.2 (.inl (matches_literal.2 rfl))⟩
    refine startsAt_append.2 ⟨u ++ s.takeWhile inLine, s.dropWhile inLine, ?_, ?_, ?_⟩
    · rw [List.append_assoc, ← hsplit]
    · exact matches_append.2 ⟨u, _, rfl, by rw [← hsplit]; exact hp, matches_many.2 hline⟩
    · rw [lastAfter_append]
      exact hbreak

theorem startsAt_restOfLineAndBlank {p : Pattern} :
    (p ++ many inLine ++ lineBreakAndBlank).StartsAt before t ↔ p.StartsAt before t := by
  constructor
  · rintro ⟨_, rest, rfl, hmatches⟩
    obtain ⟨_, v, rfl, hfront, -⟩ := matches_append.1 hmatches
    obtain ⟨u, w, rfl, hp, -⟩ := matches_append.1 hfront
    exact ⟨u, w ++ (v ++ rest), by simp, by simpa using hp⟩
  · intro h
    obtain ⟨u, s, rfl, hfront, e, rest, rfl, hbreak⟩ := startsAt_append.1 (startsAt_restOfLine.2 h)
    refine startsAt_append.2 ⟨u, _, rfl, hfront, e, rest, rfl, ?_⟩
    refine matches_or.2 ((matches_or.1 hbreak).imp_left fun hnewline => ?_)
    obtain rfl := matches_literal.1 hnewline
    exact matches_append.2 ⟨['\n'], [], rfl, matches_literal.2 rfl, matches_optional.2 (.inr rfl)⟩

end SiteScaffold.Pattern

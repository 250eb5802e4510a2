/-
Words of a camel-case identifier. The identifier falls apart into words, of which all but the first
start with an upper-case letter, and they are written with single spaces between them
(`exists_words`). Where a word starts is told by the characters around a place as they were before any
space was put in. A space put in takes nothing from that: it is itself no start of a word, nothing
behind it is one, and a letter before it was none (`seamless_splitAfter`). So no word starts inside the
written words, and splitting them again changes nothing (`splitCamelCase_spaces`).
-/
import SiteScaffold.Name
import SiteScaffold.Proofs.Text.Lines

namespace SiteScaffold.Name

variable {before a b c : Char} {next : Option Char} {t u v : Text}

-- ================================================================== the words

/-- Whether the text starts with an upper-case letter. -/
def Capitalized (word : Text) : Prop := ∃ c ∈ word.head?, c.isUpper

/-- What follows a character is the rest of its word, and words with a space before each. -/
theorem exists_splitAfter (before : Char) (t : Text) :
    ∃ (front : Text) (words : List Text), t = front ++ words.flatten ∧ splitAfter before t = front ++ words.flatMap (' ' :: ·)
      ∧ ∀ word ∈ words, Capitalized word := by
  induction t generalizing before with
  | nil => exact ⟨[], [], rfl, rfl, by simp⟩
  | cons c t ih =>
      obtain ⟨front, words, htext, hsplit, hwords⟩ := ih c
      by_cases hstart : startsWord before c t.head?
      · have hupper : c.isUpper := (Bool.and_eq_true_iff.1 hstart).1
        refine ⟨[], (c :: front) :: words, by simp [← htext], ?_, ?_⟩
        · rw [splitAfter, if_pos hstart, hsplit]
          simp
        · exact List.forall_mem_cons.2 ⟨⟨c, rfl, hupper⟩, hwords⟩
      · refine ⟨c :: front, words, by simp [← htext], ?_, hwords⟩
        rw [splitAfter, if_neg hstart, hsplit]
        rfl

theorem join_words (word : Text) (words : List Text) :
    Text.join " " (word :: words) = word ++ words.flatMap (' ' :: ·) := by
  induction words generalizing word with
  | nil => simp [Text.join]
  | cons next words ih =>
      rw [Text.join_cons _ _ (by simp), ih, List.flatMap_cons]
      rfl

/-- An identifier falls apart into the words that are written. -/
theorem exists_words (t : Text) :
    ∃ words : List Text, t = words.flatten ∧ splitCamelCase t = Text.join " " words
      ∧ (∀ word ∈ words, word ≠ []) ∧ ∀ word ∈ words.tail, Capitalized word := by
  cases t with
  | nil => exact ⟨[], rfl, rfl, by simp, by simp⟩
  | cons c t =>
      obtain ⟨front, words, htext, hsplit, hwords⟩ := exists_splitAfter c t
      refine ⟨(c :: front) :: words, by simp [← htext], ?_, ?_, hwords⟩
      · rw [splitCamelCase, hsplit, join_words]
        rfl
      · refine List.forall_mem_cons.2 ⟨by simp, fun word hword => ?_⟩
        obtain ⟨d, hd, -⟩ := hwords word hword
        rintro rfl
        cases hd

-- ========================================================= no word inside

/-- Whether no word starts in the text that stands after a character. -/
def Seamless (before : Char) : Text → Prop
  | [] => True
  | c :: rest => startsWord before c rest.head? = false ∧ Seamless c rest

/-- A text without seams stays as it is. -/
theorem splitAfter_of_seamless (h : Seamless before t) : splitAfter before t = t := by
  induction t generalizing before with
  | nil => rfl
  | cons c t ih =>
      rw [splitAfter, if_neg (by simp [h.1]), ih h.2]

theorem startsWord_space (next : Option Char) : startsWord before ' ' next = false := rfl

theorem startsWord_after_space (next : Option Char) : startsWord ' ' c next = false := by
  simp [startsWord]

/-- A word that starts before a space starts before anything else as well. -/
theorem startsWord_of_before_space (h : startsWord before c (some ' ')) : startsWord before c next := by
  simp_all [startsWord]

/-- The spaces put in behind a character make it no start of a word. -/
theorem startsWord_splitAfter (h : startsWord before c t.head? = false) :
    startsWord before c (splitAfter c t).head? = false := by
  cases t with
  | nil => exact h
  | cons d t =>
      rw [splitAfter]
      split
      next =>
        refine Bool.eq_false_iff.2 fun hspace => ?_
        rw [startsWord_of_before_space hspace] at h
        cases h
      next => exact h

/-- No word starts in what is written. -/
theorem seamless_splitAfter (before : Char) (t : Text) : Seamless before (splitAfter before t) := by
  induction t generalizing before with
  | nil => trivial
  | cons c t ih =>
      rw [splitAfter]
      split
      next => exact ⟨startsWord_space _, startsWord_after_space _, ih c⟩
      next hstart => exact ⟨startsWord_splitAfter (by simpa using hstart), ih c⟩

/-- No word starts anywhere in a text without seams. -/
theorem Seamless.not_startsWord (h : Seamless before t) (htext : before :: t = u ++ a :: b :: v) :
    startsWord a b v.head? = false := by
  induction u generalizing before t with
  | nil =>
      obtain ⟨rfl, rfl⟩ : before = a ∧ t = b :: v := List.cons_eq_cons.1 htext
      exact h.1
  | cons d u ih =>
      obtain ⟨rfl, rfl⟩ : before = d ∧ t = u ++ a :: b :: v := List.cons_eq_cons.1 htext
      cases u with
      | nil => exact ih h.2 rfl
      | cons e u => exact ih h.2 rfl

theorem not_startsWord_of_split (h : splitCamelCase t = u ++ a :: b :: v) :
    startsWord a b v.head? = false := by
  cases t with
  | nil => simp [splitCamelCase] at h
  | cons c t => exact (seamless_splitAfter c t).not_startsWord h

theorem splitCamelCase_split (t : Text) : splitCamelCase (splitCamelCase t) = splitCamelCase t := by
  cases t with
  | nil => rfl
  | cons c t =>
      rw [splitCamelCase, splitCamelCase, splitAfter_of_seamless (seamless_splitAfter c t)]

/-- Splitting writes the words of an identifier with single spaces between them. No word starts inside
what is written, so splitting it again changes nothing. -/
theorem splitCamelCase_spaces (t : Text) :
    (∃ words : List Text, t = words.flatten ∧ splitCamelCase t = Text.join " " words
        ∧ (∀ word ∈ words, word ≠ []) ∧ ∀ word ∈ words.tail, Capitalized word)
      ∧ (∀ a b, [a, b] <:+: splitCamelCase t → b.isUpper → ¬ (a.isLower ∨ a.isDigit))
      ∧ (∀ a b c, [a, b, c] <:+: splitCamelCase t → a.isUpper → b.isUpper → ¬ c.isLower)
      ∧ splitCamelCase (splitCamelCase t) = splitCamelCase t := by
  refine ⟨exists_words t, ?_, ?_, splitCamelCase_split t⟩
  · rintro a b ⟨u, v, htext⟩ hb ha
    have hinside : startsWord a b v.head? = false :=
      not_startsWord_of_split (t := t) (u := u) (by rw [← htext]; simp)
    rcases ha with ha | ha
    · simp [startsWord, hb, ha] at hinside
    · simp [startsWord, hb, ha] at hinside
  · rintro a b c ⟨u, v, htext⟩ ha hb hc
    have hinside : startsWord a b (c :: v).head? = false :=
      not_startsWord_of_split (t := t) (u := u) (by rw [← htext]; simp)
    simp [startsWord, ha, hb, hc] at hinside

example : splitCamelCase "HTMLPage2Go" = "HTML Page2 Go" := by decide +kernel

end SiteScaffold.Name

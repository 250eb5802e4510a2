/-
Texts in parts: how two ways to cut one text up lie to each other, what a text is
made of line by line, and what trimming leaves of it.

A text that is put together from whole lines is cut up into the lines of its
parts again (`wholeLines_append`), and each cut between two lines of a text cuts
it into two texts of whole lines (`wholeLines_eq_append`). A run of three newlines
is not made by putting texts together unless the second one starts with a
newline (`NoRun.append`).
-/
import Mathlib.Data.List.Basic
import SiteScaffold.Text.Basic

namespace SiteScaffold.Text

variable {a b s t u v : Text} {names : List Text}

-- ============================================================== texts joined

theorem join_cons (sep a : Text) (hne : names ≠ []) : join sep (a :: names) = a ++ (sep ++ join sep names) := by
  obtain ⟨b, names, rfl⟩ := List.exists_cons_of_ne_nil hne
  simp [join, List.intercalate]

/-- Joined texts hold nothing but what is in them and what is put between them. -/
theorem mem_join {c : Char} {sep : Text} (h : c ∈ join sep names) : c ∈ sep ∨ ∃ name ∈ names, c ∈ name := by
  induction names with
  | nil => simp [join, List.intercalate] at h
  | cons a names ih =>
      by_cases hrest : names = []
      · rw [hrest] at h ⊢
        exact .inr ⟨a, by simp, by simpa [join, List.intercalate] using h⟩
      · rw [join_cons sep a hrest, List.mem_append, List.mem_append] at h
        rcases h with h | h | h
        · exact .inr ⟨a, by simp, h⟩
        · exact .inl h
        · exact (ih h).imp_right fun ⟨b, hb, hc⟩ => ⟨b, List.mem_cons_of_mem _ hb, hc⟩

-- ============================================================ texts that agree

/-- If two texts agree and one has a letter where the other is still without it,
the other is the shorter one. -/
theorem exists_append_of_notMem {c : Char} (h : s ++ c :: t = u ++ v) (hmem : c ∉ u) :
    ∃ y, s = u ++ y ∧ v = y ++ c :: t := by
  rcases List.append_eq_append_iff.1 h with ⟨y, rfl, hv⟩ | ⟨y, rfl, hx⟩
  · cases y with
    | nil => exact ⟨[], by simp, by simpa using hv.symm⟩
    | cons d y =>
        obtain ⟨rfl, -⟩ := List.cons_eq_cons.1 hv
        simp at hmem
  · exact ⟨y, rfl, hx⟩

/-- If two texts agree and one has a letter that the end of the other is without,
the letter stands before that end. -/
theorem exists_append_of_notMem_right {c : Char} (h : s ++ c :: t = u ++ v) (hmem : c ∉ v) :
    ∃ y, u = s ++ c :: y ∧ t = y ++ v := by
  rcases List.append_eq_append_iff.1 h with ⟨y, rfl, hv⟩ | ⟨y, rfl, rfl⟩
  · cases y with
    | nil =>
        obtain rfl : c :: t = v := hv
        simp at hmem
    | cons d y =>
        obtain ⟨rfl, rfl⟩ : c = d ∧ t = y ++ v := List.cons_eq_cons.1 hv
        exact ⟨y, rfl, rfl⟩
  · simp at hmem

/-- Texts that agree have a character for the first time at one place. -/
theorem eq_of_first {c : Char} (h : s ++ c :: u = t ++ c :: v) (hs : c ∉ s) (ht : c ∉ t) :
    s = t := by
  obtain ⟨y, rfl, hy⟩ := exists_append_of_notMem h ht
  cases y with
  | nil => rw [List.append_nil]
  | cons d y =>
      obtain ⟨rfl, -⟩ := List.cons_eq_cons.1 hy
      simp at hs

/-- Two texts that agree and start with characters of a class, as many as there
are, agree on those and on the rest. -/
theorem append_inj_of_span {P : Char → Bool} (h : s ++ u = t ++ v) (hs : ∀ c ∈ s, P c)
    (ht : ∀ c ∈ t, P c) (hu : ∀ c ∈ u.head?, P c = false) (hv : ∀ c ∈ v.head?, P c = false) :
    s = t ∧ u = v := by
  induction s generalizing t with
  | nil =>
      cases t with
      | nil => exact ⟨rfl, h⟩
      | cons d t =>
          have hd : P d = true := ht d (List.mem_cons_self ..)
          obtain rfl : u = d :: (t ++ v) := h
          rw [hu d rfl] at hd
          cases hd
  | cons c s ih =>
      cases t with
      | nil =>
          have hc : P c = true := hs c (List.mem_cons_self ..)
          obtain rfl : c :: (s ++ u) = v := h
          rw [hv c rfl] at hc
          cases hc
      | cons d t =>
          obtain ⟨rfl, htail⟩ : c = d ∧ s ++ u = t ++ v := List.cons_eq_cons.1 h
          obtain ⟨rfl, rfl⟩ := ih htail (fun x hx => hs x (List.mem_cons_of_mem _ hx))
            (fun x hx => ht x (List.mem_cons_of_mem _ hx))
          exact ⟨rfl, rfl⟩

/-- Two texts that agree and end in characters of a class, as many as there are, agree on
those and on the rest. -/
theorem append_inj_of_span_right {P : Char → Bool} (h : u ++ s = v ++ t) (hs : ∀ c ∈ s, P c)
    (ht : ∀ c ∈ t, P c) (hu : ∀ c ∈ u.getLast?, P c = false) (hv : ∀ c ∈ v.getLast?, P c = false) :
    u = v ∧ s = t := by
  have hreverse := congrArg List.reverse h
  rw [List.reverse_append, List.reverse_append] at hreverse
  obtain ⟨hends, hstarts⟩ := append_inj_of_span hreverse (by simpa using hs) (by simpa using ht)
    (by simpa using hu) (by simpa using hv)
  exact ⟨List.reverse_inj.1 hstarts, List.reverse_inj.1 hends⟩

-- ======================================================= at the front and the end

theorem after?_eq_some_iff {head rest : Text} : after? head t = some rest ↔ t = head ++ rest := by
  induction head generalizing t with
  | nil => simp [after?, eq_comm]
  | cons h head ih =>
      cases t with
      | nil => simp [after?]
      | cons c t =>
          unfold after?
          split
          next heq => simp [ih, heq]
          next hne => simp [Ne.symm hne]

theorem before?_eq_some_iff {tail front : Text} : before? tail t = some front ↔ t = front ++ tail := by
  rw [before?, Option.map_eq_some_iff]
  constructor
  · rintro ⟨back, hback, rfl⟩
    have hreverse := congrArg List.reverse (after?_eq_some_iff.1 hback)
    simpa using hreverse
  · rintro rfl
    exact ⟨front.reverse, after?_eq_some_iff.2 (by simp), by simp⟩

theorem endsWith_iff {tail : Text} : endsWith t tail ↔ tail <:+ t := by
  rw [endsWith, Option.isSome_iff_exists]
  constructor
  · rintro ⟨front, hfront⟩
    exact ⟨front, (before?_eq_some_iff.1 hfront).symm⟩
  · rintro ⟨front, rfl⟩
    exact ⟨front, before?_eq_some_iff.2 rfl⟩

/-- What a text is made of, one part after the other, can be read off its places. -/
theorem forall_split_iff {P : Text → Text → Prop} :
    (∀ a b, t = a ++ b → P a b) ↔ ∀ n ∈ List.range (t.length + 1), P (t.take n) (t.drop n) := by
  constructor
  · exact fun h n _ => h _ _ (List.take_append_drop n t).symm
  · rintro h a b rfl
    have hsplit := h a.length (List.mem_range.2 (by rw [List.length_append]; omega))
    rwa [List.take_left, List.drop_left] at hsplit

-- ======================================================================= lines

/-- Whether a text is made of whole lines, each with its newline. -/
def EndsLine (t : Text) : Prop := t = [] ∨ ∃ s, t = s ++ ['\n']

theorem endsLine_newline : EndsLine (s ++ ['\n']) := .inr ⟨s, rfl⟩

theorem EndsLine.append (hs : EndsLine s) (ht : EndsLine t) : EndsLine (s ++ t) := by
  rcases ht with rfl | ⟨t, rfl⟩
  · rw [List.append_nil]
    exact hs
  · exact .inr ⟨s ++ t, (List.append_assoc ..).symm⟩

theorem endsLine_flatMap {α : Type} {xs : List α} {f : α → Text} (h : ∀ x ∈ xs, EndsLine (f x)) :
    EndsLine (xs.flatMap f) := by
  induction xs with
  | nil => exact .inl rfl
  | cons x xs ih =>
      rw [List.flatMap_cons]
      exact (h x (List.mem_cons_self ..)).append (ih fun y hy => h y (List.mem_cons_of_mem _ hy))

/-- What is left of a text of whole lines ends in a newline too. -/
theorem EndsLine.of_append (h : EndsLine (s ++ t)) (hne : t ≠ []) : ∃ r, t = r ++ ['\n'] := by
  obtain ⟨r, c, rfl⟩ := List.eq_nil_or_concat' t |>.resolve_left hne
  rcases h with hnil | ⟨u, heq⟩
  · simp at hnil
  · rw [← List.append_assoc] at heq
    obtain ⟨-, hlast⟩ := List.append_inj' heq rfl
    exact ⟨r, by rw [hlast]⟩

theorem wholeLines_newline : wholeLines ('\n' :: t) = ['\n'] :: wholeLines t := rfl

theorem wholeLines_cons {c : Char} (hc : c ≠ '\n') :
    wholeLines (c :: t) = consFirst c (wholeLines t) := by
  show (if c = '\n' then [c] :: wholeLines t else consFirst c (wholeLines t)) = _
  rw [if_neg hc]

theorem wholeLines_ne_nil (h : t ≠ []) : wholeLines t ≠ [] := by
  obtain ⟨c, t, rfl⟩ := List.exists_cons_of_ne_nil h
  by_cases hc : c = '\n'
  · rw [hc, wholeLines_newline]
    simp
  · rw [wholeLines_cons hc]
    cases wholeLines t with
    | nil => simp [consFirst]
    | cons l ls => simp [consFirst]

theorem consFirst_append {c : Char} {ls ms : List Text} (h : ls ≠ []) :
    consFirst c (ls ++ ms) = consFirst c ls ++ ms := by
  obtain ⟨l, ls, rfl⟩ := List.exists_cons_of_ne_nil h
  rfl

/-- The lines of a text put together are the text. -/
theorem flatten_wholeLines (t : Text) : (wholeLines t).flatten = t := by
  induction t with
  | nil => rfl
  | cons c t ih =>
      by_cases hc : c = '\n'
      · rw [hc, wholeLines_newline, List.flatten_cons, ih]
        rfl
      · rw [wholeLines_cons hc]
        cases hlines : wholeLines t with
        | nil =>
            rw [hlines] at ih
            rw [← ih]
            rfl
        | cons l ls =>
            rw [hlines] at ih
            rw [← ih]
            rfl

/-- The lines of a text after whole lines are those lines and its own. -/
theorem wholeLines_append (h : EndsLine s) : wholeLines (s ++ t) = wholeLines s ++ wholeLines t := by
  rcases h with rfl | ⟨s, rfl⟩
  · rfl
  · induction s with
    | nil => rfl
    | cons c s ih =>
        rw [List.cons_append, List.cons_append]
        by_cases hc : c = '\n'
        · rw [hc, wholeLines_newline, wholeLines_newline, ih]
          rfl
        · rw [wholeLines_cons hc, wholeLines_cons hc, ih]
          exact consFirst_append (wholeLines_ne_nil (by simp))

/-- A text with no newline but at its end is one line. -/
theorem wholeLines_line (h : '\n' ∉ s) : wholeLines (s ++ ['\n']) = [s ++ ['\n']] := by
  induction s with
  | nil => rfl
  | cons c s ih =>
      obtain ⟨hc, hs⟩ := not_or.1 (mt List.mem_cons.2 h)
      rw [List.cons_append, wholeLines_cons (Ne.symm hc), ih hs]
      rfl

/-- A cut between lines: each line before it has its newline, and the lines after
it are the lines of the text they make up. -/
theorem wholeLines_eq_append {front back : List Text} (h : wholeLines t = front ++ back)
    (hne : back ≠ []) : (∀ l ∈ front, EndsLine l ∧ l ≠ []) ∧ wholeLines back.flatten = back := by
  induction t generalizing front with
  | nil =>
      have hnil : back = [] := (List.append_eq_nil_iff.1 h.symm).2
      exact absurd hnil hne
  | cons c t ih =>
      cases front with
      | nil =>
          obtain rfl : wholeLines (c :: t) = back := h
          refine ⟨by simp, ?_⟩
          rw [flatten_wholeLines]
      | cons l front =>
          by_cases hc : c = '\n'
          · rw [hc, wholeLines_newline] at h
            obtain ⟨rfl, htail⟩ := List.cons_eq_cons.1 h
            obtain ⟨hfront, hback⟩ := ih htail
            refine ⟨fun x hx => ?_, hback⟩
            rcases List.mem_cons.1 hx with rfl | hx
            · exact ⟨.inr ⟨[], rfl⟩, by simp⟩
            · exact hfront x hx
          · rw [wholeLines_cons hc] at h
            cases hlines : wholeLines t with
            | nil =>
                rw [hlines] at h
                obtain ⟨-, hnil⟩ := List.cons_eq_cons.1 h
                exact absurd (List.append_eq_nil_iff.1 hnil.symm).2 hne
            | cons m lines =>
                rw [hlines] at h
                obtain ⟨rfl, rfl⟩ : c :: m = l ∧ lines = front ++ back := List.cons_eq_cons.1 h
                obtain ⟨hfront, hback⟩ := ih (show wholeLines t = (m :: front) ++ back from hlines)
                refine ⟨fun x hx => ?_, hback⟩
                rcases List.mem_cons.1 hx with rfl | hx
                · obtain ⟨hends, hm⟩ := hfront m (List.mem_cons_self ..)
                  obtain ⟨r, rfl⟩ := hends.resolve_left hm
                  exact ⟨.inr ⟨c :: r, rfl⟩, by simp⟩
                · exact hfront x (List.mem_cons_of_mem _ hx)

/-- A text without newlines is one line, if it is any. -/
theorem wholeLines_of_notMem (h : '\n' ∉ s) (hne : s ≠ []) : wholeLines s = [s] := by
  induction s with
  | nil => exact absurd rfl hne
  | cons c s ih =>
      obtain ⟨hc, hs⟩ := not_or.1 (mt List.mem_cons.2 h)
      rw [wholeLines_cons (Ne.symm hc)]
      by_cases hnil : s = []
      · rw [hnil]
        rfl
      · rw [ih hs hnil]
        rfl

theorem ne_nil_of_mem_wholeLines {l : Text} (h : l ∈ wholeLines t) : l ≠ [] := by
  induction t generalizing l with
  | nil => cases h
  | cons c t ih =>
      by_cases hc : c = '\n'
      · rw [hc, wholeLines_newline] at h
        rcases List.mem_cons.1 h with rfl | h
        · simp
        · exact ih h
      · rw [wholeLines_cons hc] at h
        cases hlines : wholeLines t with
        | nil =>
            rw [hlines] at h
            rw [List.mem_singleton.1 h]
            simp
        | cons m lines =>
            rw [hlines] at h ih
            rcases List.mem_cons.1 h with rfl | h
            · simp
            · exact ih (List.mem_cons_of_mem _ h)

/-- A line stands behind whole lines. -/
theorem exists_of_mem_wholeLines {l : Text} (h : l ∈ wholeLines t) :
    ∃ front back, t = front ++ (l ++ back) ∧ EndsLine front ∧ l ≠ [] := by
  obtain ⟨before, after, hlines⟩ := List.append_of_mem h
  obtain ⟨hbefore, -⟩ := wholeLines_eq_append hlines (by simp)
  refine ⟨before.flatten, after.flatten, ?_, ?_, ne_nil_of_mem_wholeLines h⟩
  · rw [← List.flatten_cons, ← List.flatten_append, ← hlines, flatten_wholeLines]
  · rw [← List.flatMap_id]
    exact endsLine_flatMap fun l hl => (hbefore l hl).1

theorem infix_of_mem_wholeLines {l : Text} (h : l ∈ wholeLines t) : l <:+: t := by
  obtain ⟨front, back, rfl, -, -⟩ := exists_of_mem_wholeLines h
  exact ⟨front, back, List.append_assoc ..⟩

/-- A line is the only one of its own. -/
theorem wholeLines_of_mem {l : Text} (h : l ∈ wholeLines t) : wholeLines l = [l] := by
  obtain ⟨before, after, hlines⟩ := List.append_of_mem h
  obtain ⟨-, hrest⟩ := wholeLines_eq_append hlines (by simp)
  rw [List.flatten_cons] at hrest
  by_cases hafter : after = []
  · rw [hafter, List.flatten_nil, List.append_nil] at hrest
    exact hrest
  · rw [List.append_cons] at hlines
    obtain ⟨hbefore, hback⟩ := wholeLines_eq_append hlines hafter
    rw [wholeLines_append (hbefore l (by simp)).1, hback] at hrest
    exact List.append_cancel_right (hrest.trans (List.singleton_append ..).symm)

/-- Whether a line is the first one of a text, with a rest behind it. -/
def FirstLine (line rest : Text) : Prop := wholeLines (line ++ rest) = line :: wholeLines rest

/-- A first line is a line of its own. -/
theorem FirstLine.wholeLines_eq {line rest : Text} (h : FirstLine line rest) : wholeLines line = [line] :=
  wholeLines_of_mem (t := line ++ rest) (by rw [h]; exact List.mem_cons_self ..)

theorem firstLine_newline (h : '\n' ∉ s) (rest : Text) : FirstLine (s ++ ['\n']) rest := by
  unfold FirstLine
  rw [wholeLines_append endsLine_newline, wholeLines_line h, List.singleton_append]

theorem firstLine_last (h : '\n' ∉ s) (hne : s ≠ []) : FirstLine s [] := by
  unfold FirstLine
  rw [List.append_nil, wholeLines_of_notMem h hne]
  rfl

/-- A first line goes up to the first newline, or to the end of the text if there is none. -/
theorem FirstLine.cases {line rest : Text} (h : FirstLine line rest) :
    (∃ s, line = s ++ ['\n'] ∧ '\n' ∉ s) ∨ '\n' ∉ line ∧ rest = [] := by
  unfold FirstLine at h
  by_cases hmem : '\n' ∈ line ++ rest
  · obtain ⟨s, t, hcut, hs⟩ := List.eq_append_cons_of_mem hmem
    rw [hcut, List.append_cons, wholeLines_append endsLine_newline, wholeLines_line hs, List.singleton_append] at h
    exact .inl ⟨s, (List.cons_eq_cons.1 h).1.symm, hs⟩
  · have hne : line ++ rest ≠ [] := by
      intro hnil
      rw [hnil] at h
      cases h
    rw [wholeLines_of_notMem hmem hne] at h
    obtain ⟨hline, -⟩ := List.cons_eq_cons.1 h
    exact .inr ⟨fun hline => hmem (List.mem_append_left _ hline), List.append_right_eq_self.1 hline⟩

/-- A line of a text stands behind whole lines and is the first one there. -/
theorem exists_of_wholeLines_eq {line : Text} {front back : List Text} (h : wholeLines t = front ++ line :: back) :
    ∃ u rest, t = u ++ (line ++ rest) ∧ EndsLine u ∧ FirstLine line rest ∧ wholeLines rest = back := by
  obtain ⟨hfront, hlines⟩ := wholeLines_eq_append h (by simp)
  have hback : wholeLines back.flatten = back := by
    by_cases hnil : back = []
    · rw [hnil]
      rfl
    · have hcut : wholeLines (line :: back).flatten = [line] ++ back := hlines
      exact (wholeLines_eq_append hcut hnil).2
  refine ⟨front.flatten, back.flatten, ?_, ?_, ?_, hback⟩
  · rw [← List.flatten_cons, ← List.flatten_append, ← h, flatten_wholeLines]
  · rw [← List.flatMap_id]
    exact endsLine_flatMap fun l hl => (hfront l hl).1
  · unfold FirstLine
    rw [hback]
    exact hlines

theorem exists_firstLine (h : t ≠ []) : ∃ line rest, t = line ++ rest ∧ FirstLine line rest := by
  obtain ⟨line, back, hlines⟩ := List.exists_cons_of_ne_nil (wholeLines_ne_nil h)
  have hcut : wholeLines t = [] ++ line :: back := hlines
  obtain ⟨u, rest, htext, -, hfirst, hback⟩ := exists_of_wholeLines_eq hcut
  refine ⟨line, rest, ?_, hfirst⟩
  have hflat := flatten_wholeLines t
  rw [hlines, List.flatten_cons, ← hback, flatten_wholeLines] at hflat
  exact hflat.symm

/-- Each character of texts put together stands in one of them. -/
theorem exists_of_flatten_eq {c : Char} {lines : List Text} (h : lines.flatten = s ++ c :: t) :
    ∃ before a b after, lines = before ++ (a ++ c :: b) :: after ∧ s = before.flatten ++ a
      ∧ t = b ++ after.flatten := by
  induction lines generalizing s with
  | nil => simp at h
  | cons l lines ih =>
      rw [List.flatten_cons] at h
      have hlater : ∀ {s' : Text}, lines.flatten = s' ++ c :: t → s = l ++ s' →
          ∃ before a b after, l :: lines = before ++ (a ++ c :: b) :: after ∧ s = before.flatten ++ a
            ∧ t = b ++ after.flatten := by
        rintro s' hrest rfl
        obtain ⟨before, a, b, after, hlines, rfl, rfl⟩ := ih hrest
        exact ⟨l :: before, a, b, after, by rw [hlines, List.cons_append], by simp, rfl⟩
      rcases List.append_eq_append_iff.1 h with ⟨y, rfl, hrest⟩ | ⟨y, rfl, hrest⟩
      · exact hlater hrest rfl
      · cases y with
        | nil =>
            have hlines : lines.flatten = [] ++ c :: t := hrest.symm
            exact hlater hlines (by simp)
        | cons d y =>
            obtain ⟨rfl, rfl⟩ : c = d ∧ t = y ++ lines.flatten := List.cons_eq_cons.1 hrest
            exact ⟨[], s, y, lines, rfl, rfl, rfl⟩

/-- No newline is in front of anything on a line. -/
theorem FirstLine.newline_notMem {rest : Text} (h : FirstLine (s ++ t) rest) (hne : t ≠ []) : '\n' ∉ s := by
  rcases h.cases with ⟨r, hline, hr⟩ | ⟨hnone, -⟩
  · obtain ⟨v, rfl⟩ := EndsLine.of_append (s := s) (by rw [hline]; exact endsLine_newline) hne
    rw [← List.append_assoc] at hline
    rw [← (List.append_inj' hline rfl).1] at hr
    exact fun hmem => hr (List.mem_append_left _ hmem)
  · exact fun hmem => hnone (List.mem_append_left _ hmem)

/-- Each character of a text stands on a line, behind whole lines and in front of the others. -/
theorem exists_firstLine_of_append {c : Char} (s t : Text) :
    ∃ front a b back, s = front ++ a ∧ t = b ++ back ∧ EndsLine front ∧ FirstLine (a ++ c :: b) back := by
  obtain ⟨before, a, b, after, hlines, hs, ht⟩ := exists_of_flatten_eq (flatten_wholeLines (s ++ c :: t))
  obtain ⟨front, back, htext, hfront, hfirst, hback⟩ := exists_of_wholeLines_eq hlines
  rw [← hback, flatten_wholeLines] at ht
  rw [ht] at htext
  have hcut : s ++ (c :: (b ++ back)) = (front ++ a) ++ (c :: (b ++ back)) := by simpa using htext
  exact ⟨front, a, b, back, List.append_cancel_right hcut, ht, hfront, hfirst⟩

theorem exists_line {c : Char} (s t : Text) :
    ∃ front a b back, s = front ++ a ∧ t = b ++ back ∧ EndsLine front
      ∧ (a ++ c :: b) ∈ wholeLines (s ++ c :: t) := by
  obtain ⟨front, a, b, back, rfl, rfl, hfront, hfirst⟩ := exists_firstLine_of_append (c := c) s t
  have hcut : front ++ a ++ c :: (b ++ back) = front ++ ((a ++ c :: b) ++ back) := by simp
  refine ⟨front, a, b, back, rfl, rfl, hfront, ?_⟩
  rw [hcut, wholeLines_append hfront, hfirst]
  simp

/-- Some of the lines of a text are the lines of what they make up. -/
theorem wholeLines_flatten_of_sublist {ls : List Text} (h : ls.Sublist (wholeLines t)) :
    wholeLines ls.flatten = ls := by
  induction ls with
  | nil => rfl
  | cons l ls ih =>
      have hls := ih ((List.sublist_cons_self l ls).trans h)
      obtain ⟨front, back, hlines, hl, hback⟩ := List.cons_sublist_iff.1 h
      have hone : wholeLines l = [l] := wholeLines_of_mem (t := t) (by rw [hlines]; exact List.mem_append_left _ hl)
      rw [List.flatten_cons]
      by_cases hnil : ls = []
      · rw [hnil, List.flatten_nil, List.append_nil, hone]
      · -- a line with others behind it has its newline
        have hne : back ≠ [] := by
          rintro rfl
          exact hnil (List.sublist_nil.1 hback)
        rw [wholeLines_append ((wholeLines_eq_append hlines hne).1 l hl).1, hone, hls, List.singleton_append]

/-- The contents of the lines of a text after whole lines. -/
theorem lines_append (h : EndsLine s) : lines (s ++ t) = lines s ++ lines t := by
  rw [lines, wholeLines_append h, List.map_append]
  rfl

/-- The contents of lines are parts of the text. -/
theorem mem_of_mem_lines {l : Text} {c : Char} (hl : l ∈ lines t) (hc : c ∈ l) : c ∈ t := by
  obtain ⟨whole, hwhole, rfl⟩ := List.mem_map.1 hl
  have hmem : c ∈ whole := by
    unfold chomp at hc
    split at hc
    next back heq =>
      rw [← List.mem_reverse, heq]
      simp [List.mem_reverse.1 hc]
    next back _ heq =>
      rw [← List.mem_reverse, heq]
      simp [List.mem_reverse.1 hc]
    next => exact hc
  rw [← flatten_wholeLines t]
  exact List.mem_flatten.2 ⟨whole, hwhole, hmem⟩

/-- A line with no carriage return before its newline. -/
theorem chomp_newline (h : s.getLast? ≠ some '\r') : chomp (s ++ ['\n']) = s := by
  rcases List.eq_nil_or_concat' s with rfl | ⟨r, c, rfl⟩
  · rfl
  · have hc : c ≠ '\r' := by simpa using h
    unfold chomp
    simp only [List.reverse_append, List.reverse_cons, List.reverse_nil, List.nil_append,
      List.singleton_append]
    split
    · next heq =>
        obtain ⟨-, heq⟩ := List.cons_eq_cons.1 heq
        exact absurd (List.cons_eq_cons.1 heq).1 hc
    · next heq =>
        obtain ⟨-, rfl⟩ := List.cons_eq_cons.1 heq
        simp
    · next _ hnone => exact absurd rfl (hnone _)

/-- The content of a text that is a single line. -/
theorem lines_line (h : '\n' ∉ s) (hlast : s.getLast? ≠ some '\r') : lines (s ++ ['\n']) = [s] := by
  rw [lines, wholeLines_line h, List.map_singleton, chomp_newline hlast]

-- ==================================================================== trimming

theorem exists_trimStart (t : Text) : ∃ a, t = a ++ trimStart t ∧ ∀ c ∈ a, isBlank c := by
  refine ⟨t.takeWhile isBlank, List.takeWhile_append_dropWhile.symm, fun c hc => ?_⟩
  exact List.all_eq_true.1 List.all_takeWhile c hc

theorem exists_trimEnd (t : Text) : ∃ b, t = trimEnd t ++ b ∧ ∀ c ∈ b, isBlank c := by
  obtain ⟨a, hsplit, ha⟩ := exists_trimStart t.reverse
  refine ⟨a.reverse, ?_, fun c hc => ha c (List.mem_reverse.1 hc)⟩
  calc t = t.reverse.reverse := t.reverse_reverse.symm
    _ = (a ++ trimStart t.reverse).reverse := congrArg _ hsplit
    _ = trimEnd t ++ a.reverse := List.reverse_append

/-- A text is what trimming leaves of it between white space. -/
theorem exists_trim (t : Text) :
    ∃ a b, t = a ++ trim t ++ b ∧ (∀ c ∈ a, isBlank c) ∧ ∀ c ∈ b, isBlank c := by
  obtain ⟨b, hend, hb⟩ := exists_trimEnd t
  obtain ⟨a, hstart, ha⟩ := exists_trimStart (trimEnd t)
  refine ⟨a, b, ?_, ha, hb⟩
  calc t = trimEnd t ++ b := hend
    _ = a ++ trimStart (trimEnd t) ++ b := by rw [← hstart]

/-- Trimming takes the white space around a text off, and no more. -/
theorem trim_append (ha : ∀ c ∈ a, isBlank c) (hb : ∀ c ∈ b, isBlank c) (hne : t ≠ [])
    (hhead : ∀ c ∈ t.head?, isBlank c = false) (hlast : ∀ c ∈ t.getLast?, isBlank c = false) :
    trim (a ++ t ++ b) = t := by
  have hend : trimEnd (a ++ t ++ b) = a ++ t := by
    obtain ⟨r, c, rfl⟩ := List.eq_nil_or_concat' t |>.resolve_left hne
    have hc : isBlank c = false := hlast c (by simp)
    have hb' : ∀ c ∈ b.reverse, isBlank c := fun d hd => hb d (List.mem_reverse.1 hd)
    have hreverse : (a ++ (r ++ [c]) ++ b).reverse
        = b.reverse ++ c :: (r.reverse ++ a.reverse) := by simp
    rw [trimEnd, hreverse, List.dropWhile_append_of_pos hb', List.dropWhile_cons_of_neg (by simp [hc])]
    simp
  obtain ⟨c, r, rfl⟩ := List.exists_cons_of_ne_nil hne
  have hc : isBlank c = false := hhead c rfl
  rw [trim, hend, trimStart, List.dropWhile_append_of_pos ha,
    List.dropWhile_cons_of_neg (by simp [hc])]

/-- White space around a text does not change what trimming leaves of it. -/
theorem trim_around (ha : ∀ c ∈ a, isBlank c) (hb : ∀ c ∈ b, isBlank c) :
    trim (a ++ t ++ b) = trim t := by
  have hreverse : ∀ {s : Text}, (∀ c ∈ s, isBlank c) → ∀ c ∈ s.reverse, isBlank c :=
    fun hs c hc => hs c (List.mem_reverse.1 hc)
  have hend : trimEnd (a ++ t ++ b) = trimEnd (a ++ t) := by
    rw [trimEnd, List.reverse_append, List.dropWhile_append_of_pos (hreverse hb)]
    rfl
  rw [trim, hend, trimEnd, List.reverse_append, List.dropWhile_append]
  by_cases hempty : (t.reverse.dropWhile isBlank).isEmpty
  · have hall : a.reverse.dropWhile isBlank = [] := by
      have hnil : (a.reverse ++ []).dropWhile isBlank = [] :=
        List.dropWhile_append_of_pos (hreverse ha)
      rwa [List.append_nil] at hnil
    rw [if_pos hempty, hall, trim, trimEnd, List.isEmpty_iff.1 hempty]
  · rw [if_neg hempty, List.reverse_append, List.reverse_reverse, trimStart,
      List.dropWhile_append_of_pos ha]
    rfl

-- ============================================================ runs of newlines

/-- Whether no three newlines stand side by side in the text. -/
def NoRun (t : Text) : Prop := ∀ u v, t ≠ u ++ '\n' :: '\n' :: '\n' :: v

theorem NoRun.left (h : NoRun (s ++ t)) : NoRun s := by
  rintro u v rfl
  exact h u (v ++ t) (by simp)

theorem NoRun.right (h : NoRun (s ++ t)) : NoRun t := by
  rintro u v rfl
  exact h (s ++ u) v (by simp)

/-- Two texts without a run make none where they meet, if the second starts with
another character. -/
theorem NoRun.append (hs : NoRun s) (ht : NoRun t) (hhead : '\n' ∉ t.head?) : NoRun (s ++ t) := by
  intro u v heq
  rcases List.append_eq_append_iff.1 heq with ⟨y, rfl, hv⟩ | ⟨y, rfl, hv⟩
  · exact ht y v hv
  · match y, hv with
    | [], hv =>
        obtain rfl : '\n' :: '\n' :: '\n' :: v = t := hv
        simp at hhead
    | [_], hv =>
        obtain ⟨-, rfl⟩ : _ ∧ '\n' :: '\n' :: v = t := List.cons_eq_cons.1 hv
        simp at hhead
    | [_, _], hv =>
        obtain ⟨-, hv⟩ := List.cons_eq_cons.1 hv
        obtain ⟨-, rfl⟩ : _ ∧ '\n' :: v = t := List.cons_eq_cons.1 hv
        simp at hhead
    | c :: d :: e :: y, hv =>
        obtain ⟨hc, hd, he, -⟩ : '\n' = c ∧ '\n' = d ∧ '\n' = e ∧ v = y ++ t := by simpa using hv
        rw [← hc, ← hd, ← he] at hs
        exact hs u y rfl

theorem NoRun.reverse (h : NoRun t) : NoRun t.reverse := by
  intro u v heq
  refine h v.reverse u.reverse ?_
  rw [← List.reverse_reverse t, heq]
  simp

/-- Nor do they if the first one ends in another character. -/
theorem NoRun.append_of_last (hs : NoRun s) (ht : NoRun t) (hlast : '\n' ∉ s.getLast?) :
    NoRun (s ++ t) := by
  have hback := ht.reverse.append hs.reverse (by rwa [List.head?_reverse])
  rw [← List.reverse_append] at hback
  have htext := hback.reverse
  rwa [List.reverse_reverse] at htext

/-- Two newlines make no run. -/
theorem noRun_of_count (h : t.count '\n' ≤ 2) : NoRun t := by
  rintro u v rfl
  simp only [List.count_append, List.count_cons_self] at h
  omega

/-- Texts without runs that start with a space make no run, one after another. -/
theorem noRun_flatMap {α : Type} {xs : List α} {f : α → Text} (h : ∀ x ∈ xs, NoRun (f x))
    (hhead : ∀ x ∈ xs, (f x).head? = some ' ') (hs : NoRun s) (hnext : '\n' ∉ s.head?) :
    NoRun (xs.flatMap f ++ s) ∧ '\n' ∉ (xs.flatMap f ++ s).head? := by
  induction xs with
  | nil => exact ⟨hs, hnext⟩
  | cons x xs ih =>
      obtain ⟨hrest, hrestHead⟩ := ih (fun y hy => h y (List.mem_cons_of_mem _ hy))
        (fun y hy => hhead y (List.mem_cons_of_mem _ hy))
      have hx := hhead x (List.mem_cons_self ..)
      rw [List.flatMap_cons, List.append_assoc]
      refine ⟨(h x (List.mem_cons_self ..)).append hrest hrestHead, ?_⟩
      rw [List.head?_append, hx]
      simp

end SiteScaffold.Text

/-
Actions in a text that stays what it is around them. The text is cut in two at its
last `end` line, and the actions put in by the program stand at the cut, oldest
first. There a search for one of them finds exactly that one:

- a line that defines the action is told by that line alone (`lineBased_definition`),
  so none is to be found in the text around the actions that had none before;
- another action has no line that defines this one (`clear_emptyBlock`);
- the match at the action itself is the action with the empty line after it
  (`prefers_block`).

So insertion adds the action at the end unless it is there (`insert_actions`), and
removal takes out that action and nothing else (`remove_actions`).
-/
import SiteScaffold.Patch.ControllerAction
import SiteScaffold.Proofs.Pattern.Lines

namespace SiteScaffold.Patch.ControllerAction

open Pattern
open Text (EndsLine NoRun)

variable {name other : Text} {names : List Text} {before : Option Char}
  {front back s t u rest : Text}

-- ====================================================== reading the patterns

/-- The start of a line that defines the action. -/
def IsHead (name t : Text) : Prop :=
  ∃ a b d, t = a ++ ("def".toList ++ (b ++ (name ++ d))) ∧ (∀ c ∈ a, isSpacing c) ∧ b ≠ []
    ∧ (∀ c ∈ b, isSpacing c) ∧ ∀ c ∈ d, isSpacing c

/-- Whether the content of a line ends here. -/
def AtLineEnd (t : Text) : Prop :=
  ∃ r s, t = r ++ s ∧ (r = ['\r'] ∨ r = []) ∧ s.head?.all (· = '\n')

theorem matches_head :
    (head name).Matches before t rest ↔ OnNewLine before ∧ IsHead name t := by
  simp only [head, matches_append, matches_lineStart, matches_spacing, matches_literal,
    matches_oneOrMore]
  constructor
  · rintro ⟨_, d, rfl, ⟨_, _, rfl, ⟨_, b, rfl, ⟨_, _, rfl, ⟨_, a, rfl, ⟨rfl, hbefore⟩, ha⟩, rfl⟩,
      hb, hb'⟩, rfl⟩, hd⟩
    exact ⟨hbefore, a, b, d, by simp, ha, hb, hb', hd⟩
  · rintro ⟨hbefore, a, b, d, rfl, ha, hb, hb', hd⟩
    exact ⟨a ++ "def".toList ++ b ++ name, d, by simp, ⟨a ++ "def".toList ++ b, name, rfl,
      ⟨a ++ "def".toList, b, rfl, ⟨a, _, rfl, ⟨[], a, rfl, ⟨rfl, hbefore⟩, ha⟩, rfl⟩, hb, hb'⟩, rfl⟩,
      hd⟩

theorem startsAt_definition :
    (definition name).StartsAt before t ↔
      OnNewLine before ∧ ∃ u s, t = u ++ s ∧ IsHead name u ∧ AtLineEnd s := by
  constructor
  · rintro ⟨_, s, rfl, h⟩
    simp only [definition, matches_append, matches_head, matches_optional, matches_literal,
      matches_lineEnd] at h
    obtain ⟨_, _, rfl, ⟨u, r, rfl, ⟨hbefore, hhead⟩, hr⟩, rfl, hs⟩ := h
    exact ⟨hbefore, u, r ++ s, by simp, hhead, r, s, rfl, hr, hs⟩
  · rintro ⟨hbefore, u, _, rfl, hhead, r, s, rfl, hr, hs⟩
    have hreturn : (optional (literal "\r".toList)).Matches (lastAfter before u) r s :=
      matches_optional.2 (hr.imp_left matches_literal.2)
    have hcontent : (head name ++ optional (literal "\r".toList)).Matches before (u ++ r) s :=
      matches_append.2 ⟨u, r, rfl, matches_head.2 ⟨hbefore, hhead⟩, hreturn⟩
    refine ⟨u ++ r, s, by simp, matches_append.2 ⟨u ++ r, [], by simp, hcontent, ?_⟩⟩
    exact matches_lineEnd.2 ⟨rfl, hs⟩

/-- An action starts with a line that defines it. -/
theorem startsAt_definition_of_block (h : (block name).StartsAt before t) :
    (definition name).StartsAt before t := by
  have hline : (head name ++ newline).StartsAt before t := h.left.left.left.left.left.left.left
  obtain ⟨u, s, rfl, hhead, v, rest, rfl, hnewline⟩ := startsAt_append.1 hline
  obtain ⟨hbefore, hhead⟩ := matches_head.1 hhead
  refine startsAt_definition.2 ⟨hbefore, u, v ++ rest, rfl, hhead, ?_⟩
  rcases matches_newline.1 hnewline with rfl | rfl
  · exact ⟨['\r'], '\n' :: rest, rfl, .inl rfl, rfl⟩
  · exact ⟨[], '\n' :: rest, rfl, .inr rfl, rfl⟩

-- ============================================================ lines on their own

theorem IsHead.newline_notMem (hname : '\n' ∉ name) (h : IsHead name t) : '\n' ∉ t := by
  obtain ⟨a, b, d, rfl, ha, -, hb, hd⟩ := h
  have := newline_notMem_spacing ha
  have := newline_notMem_spacing hb
  have := newline_notMem_spacing hd
  simp_all

/-- Whether a line ends here is told by what is up to its newline. -/
theorem AtLineEnd.within (h : AtLineEnd (s ++ '\n' :: t)) : AtLineEnd (s ++ '\n' :: u) := by
  obtain ⟨r, v, heq, hr, hv⟩ := h
  rcases hr with rfl | rfl
  · cases s with
    | nil => cases heq
    | cons c s =>
        obtain ⟨rfl, rfl⟩ : c = '\r' ∧ s ++ '\n' :: t = v := List.cons_eq_cons.1 heq
        refine ⟨['\r'], s ++ '\n' :: u, rfl, .inl rfl, ?_⟩
        cases s with
        | nil => rfl
        | cons d s => exact hv
  · obtain rfl : s ++ '\n' :: t = v := heq
    refine ⟨[], s ++ '\n' :: u, rfl, .inr rfl, ?_⟩
    cases s with
    | nil => rfl
    | cons d s => exact hv

/-- A line that defines the action is told by that line alone. -/
theorem lineBased_definition (hname : '\n' ∉ name) : (definition name).LineBased where
  onNewLine := by
    intro before before' t _ hbefore' h
    exact startsAt_definition.2 ⟨hbefore', (startsAt_definition.1 h).2⟩
  within := by
    intro before t rest rest' ht hne _ h
    obtain ⟨v, rfl⟩ := ht.resolve_left hne
    obtain ⟨hbefore, u, s, heq, hhead, hend⟩ := startsAt_definition.1 h
    rw [List.append_assoc] at heq
    obtain ⟨y, rfl, rfl⟩ := Text.exists_append_of_notMem heq (hhead.newline_notMem hname)
    exact startsAt_definition.2 ⟨hbefore, u, y ++ '\n' :: rest', by simp, hhead, hend.within⟩

-- ================================================================ other actions

theorem not_isSpacing_of_isNameChar {c : Char} (h : Name.isNameChar c) : isSpacing c = false := by
  have hspacing := Name.forall_isNameChar (P := fun c => !isSpacing c) (by decide) (by decide)
    (by decide) h
  simpa using hspacing

/-- What stands after the white space that a line starts with defines the action or
the line does not. -/
theorem IsHead.of_spacing {x y : Text} (h : IsHead name u) (heq : u ++ s = x ++ y)
    (hx : ∀ c ∈ x, isSpacing c) (hy : ∀ c ∈ y.head?, isSpacing c = false) :
    ∃ b d, y = "def".toList ++ (b ++ (name ++ (d ++ s))) ∧ b ≠ [] ∧ (∀ c ∈ b, isSpacing c)
      ∧ ∀ c ∈ d, isSpacing c := by
  obtain ⟨a, b, d, rfl, ha, hne, hb, hd⟩ := h
  have hsplit : a ++ ("def".toList ++ (b ++ (name ++ (d ++ s)))) = x ++ y := by
    rw [← heq]
    simp
  obtain ⟨-, hrest⟩ := Text.append_inj_of_span hsplit ha hx (by simp [isSpacing]) hy
  exact ⟨b, d, hrest.symm, hne, hb, hd⟩

/-- A line whose first word starts with another letter defines no action. -/
theorem not_startsAt_definition {x y : Text} {c : Char} (hx : ∀ d ∈ x, isSpacing d)
    (hc : isSpacing c = false) (hd : c ≠ 'd') :
    ¬ (definition name).StartsAt before (x ++ c :: y) := by
  intro h
  obtain ⟨-, u, s, heq, hhead, -⟩ := startsAt_definition.1 h
  obtain ⟨b, d, hdef, -⟩ := hhead.of_spacing heq.symm hx (by simpa using hc)
  exact hd (List.cons_eq_cons.1 hdef).1

theorem AtLineEnd.not_isNameChar (h : AtLineEnd t) : ∀ c ∈ t.head?, Name.isNameChar c = false := by
  obtain ⟨r, s, rfl, hr, hs⟩ := h
  have hreturn : Name.isNameChar '\r' = false := by decide
  have hnewline : Name.isNameChar '\n' = false := by decide
  rcases hr with rfl | rfl
  · simpa using hreturn
  · cases s with
    | nil => simp
    | cons d s =>
        obtain rfl : d = '\n' := by simpa using hs
        simpa using hnewline

theorem AtLineEnd.not_isSpacing (h : AtLineEnd t) : ∀ c ∈ t.head?, isSpacing c = false := by
  obtain ⟨r, s, rfl, hr, hs⟩ := h
  have hreturn : isSpacing '\r' = false := by decide
  have hnewline : isSpacing '\n' = false := by decide
  rcases hr with rfl | rfl
  · simpa using hreturn
  · cases s with
    | nil => simp
    | cons d s =>
        obtain rfl : d = '\n' := by simpa using hs
        simpa using hnewline

/-- The first line of an action defines that action only. -/
theorem eq_of_startsAt_definition (hname : Name.IsNormal name) (hother : Name.IsNormal other)
    (h : (definition name).StartsAt before ("  def ".toList ++ (other ++ '\n' :: rest))) :
    name = other := by
  obtain ⟨-, u, s, heq, hhead, hend⟩ := startsAt_definition.1 h
  obtain ⟨b, d, hdef, -, hb, hd⟩ := hhead.of_spacing (x := "  ".toList)
    (y := "def ".toList ++ (other ++ '\n' :: rest)) heq.symm (by decide) (by simp [isSpacing])
  have hspan : " ".toList ++ (other ++ '\n' :: rest) = b ++ (name ++ (d ++ s)) :=
    List.append_cancel_left (show "def".toList ++ _ = "def".toList ++ _ from hdef)
  have hothers : ∀ c ∈ (other ++ '\n' :: rest).head?, isSpacing c = false := by
    cases other with
    | nil => simp [isSpacing]
    | cons c other =>
        have hc := not_isSpacing_of_isNameChar (hother.isNameChar c (List.mem_cons_self ..))
        simpa using hc
  by_cases hnil : name = []
  · -- all that is there is white space, and the line ends behind it
    have hblank : " ".toList ++ (other ++ '\n' :: rest) = (b ++ d) ++ s := by
      rw [hspan, hnil, List.nil_append, List.append_assoc]
    have hspaces : ∀ c ∈ b ++ d, isSpacing c := by
      intro c hc
      rcases List.mem_append.1 hc with hc | hc
      · exact hb c hc
      · exact hd c hc
    obtain ⟨-, hword⟩ := Text.append_inj_of_span hblank (by decide) hspaces hothers hend.not_isSpacing
    cases other with
    | nil => exact hnil
    | cons c other =>
        have hc := hend.not_isNameChar c (by rw [← hword]; rfl)
        rw [hother.isNameChar c (List.mem_cons_self ..)] at hc
        cases hc
  · have hnames : ∀ c ∈ (name ++ (d ++ s)).head?, isSpacing c = false := by
      obtain ⟨c, r, rfl⟩ := List.exists_cons_of_ne_nil hnil
      have hc := not_isSpacing_of_isNameChar (hname.isNameChar c (List.mem_cons_self ..))
      simpa using hc
    obtain ⟨-, hword⟩ := Text.append_inj_of_span hspan (by decide) hb hothers hnames
    have hafter : ∀ c ∈ (d ++ s).head?, Name.isNameChar c = false := by
      cases d with
      | nil => exact hend.not_isNameChar
      | cons c d =>
          have hc : isSpacing c := hd c (List.mem_cons_self ..)
          intro e he
          obtain rfl : c = e := by simpa using he
          cases hn : Name.isNameChar c with
          | false => rfl
          | true =>
              rw [not_isSpacing_of_isNameChar hn] at hc
              cases hc
    have hnewline : ∀ c ∈ ('\n' :: rest).head?, Name.isNameChar c = false := by
      have hc : Name.isNameChar '\n' = false := by decide
      simpa using hc
    exact (Text.append_inj_of_span hword hother.isNameChar hname.isNameChar hnewline hafter).1.symm

theorem emptyBlock_text (name : Text) :
    emptyBlock name = "  def ".toList ++ name ++ "\n  end\n\n".toList := rfl

theorem emptyBlock_eq (name : Text) :
    emptyBlock name = ("  def ".toList ++ name ++ ['\n']) ++ (("  end".toList ++ ['\n']) ++ ([] ++ ['\n'])) := by
  rw [emptyBlock_text]
  simp

theorem onNewLine_of_startsAt (before : Option Char) (t : Text)
    (h : (definition name).StartsAt before t) : OnNewLine before :=
  (startsAt_definition.1 h).1

/-- The end of a line, and the line that ends an action, define nothing. -/
theorem clear_newline : (definition name).Clear before ['\n'] rest :=
  clear_line (s := []) onNewLine_of_startsAt (by simp)
    (not_startsAt_definition (x := []) (c := '\n') (by simp) (by decide) (by decide))

theorem clear_endLine : (definition name).Clear before ("  end".toList ++ ['\n']) rest :=
  clear_line onNewLine_of_startsAt (by decide)
    (not_startsAt_definition (x := "  ".toList) (c := 'e') (by decide) (by decide) (by decide))

/-- No line of another action defines this one. -/
theorem clear_emptyBlock (hname : Name.IsNormal name) (hother : Name.IsNormal other)
    (hdiff : name ≠ other) : (definition name).Clear before (emptyBlock other) rest := by
  rw [emptyBlock_eq]
  refine clear_append.2 ⟨clear_line onNewLine_of_startsAt ?_ ?_,
    clear_append.2 ⟨clear_endLine, clear_newline⟩⟩
  · have hmem : '\n' ∉ other := hother.notMem (by decide)
    simpa using hmem
  · intro h
    rw [List.append_assoc] at h
    exact hdiff (eq_of_startsAt_definition hname hother h)

-- ============================================================ the action itself

theorem prefers_head (hname : Name.IsNormal name) (hbefore : OnNewLine before) :
    (head name).Prefers before ([] ++ "  ".toList ++ "def".toList ++ " ".toList ++ name ++ [])
      ('\n' :: rest) := by
  have hletter : ∀ c ∈ (name ++ '\n' :: rest).head?, isSpacing c = false := by
    cases name with
    | nil => simp [isSpacing]
    | cons c name =>
        have hc := not_isSpacing_of_isNameChar (hname.isNameChar c (List.mem_cons_self ..))
        simpa using hc
  refine prefers_append (prefers_append (prefers_append (prefers_append (prefers_append
    (prefers_lineStart hbefore) ?_) (prefers_literal _)) ?_) (prefers_literal _)) ?_
  · exact prefers_many (by decide) (by simp [isSpacing])
  · exact prefers_oneOrMore (by decide) (by decide) hletter
  · exact prefers_many (by decide) (by simp [isSpacing])

/-- The match of a definition is the line up to its end. -/
theorem prefers_definition (hname : Name.IsNormal name) (hbefore : OnNewLine before) :
    (definition name).Prefers before ("  def ".toList ++ name) ('\n' :: rest) := by
  have htext : "  def ".toList ++ name
      = [] ++ "  ".toList ++ "def".toList ++ " ".toList ++ name ++ [] ++ [] ++ [] := by
    simp
  rw [htext]
  refine prefers_append (prefers_append (prefers_head hname hbefore) ?_) (prefers_lineEnd (by simp))
  refine prefers_optional_nil fun v w hsplit hmatches => ?_
  rw [matches_literal.1 hmatches] at hsplit
  simp at hsplit

/-- The match at an action is the action with the empty line after it. -/
theorem prefers_block (hname : Name.IsNormal name) (hbefore : OnNewLine before) :
    (block name).Prefers before (emptyBlock name) rest := by
  have htext : emptyBlock name = [] ++ "  ".toList ++ "def".toList ++ " ".toList ++ name ++ []
      ++ ['\n'] ++ [] ++ [] ++ "  ".toList ++ "end".toList ++ [] ++ [] ++ "\n\n".toList := by
    simp [emptyBlock_text]
  rw [htext]
  refine prefers_append (prefers_append (prefers_append (prefers_append (prefers_append
    (prefers_append (prefers_append (prefers_append (prefers_head hname hbefore) prefers_newline)
    prefers_few)
    (prefers_lineStart ?_)) ?_) (prefers_literal _)) ?_) ?_) prefers_lineBreakAndBlank
  · simp
  · exact prefers_many (by decide) (by simp [isSpacing])
  · exact prefers_many (by decide) (by simp [isSpacing])
  · refine prefers_optional_nil fun v w hsplit hmatches => ?_
    rw [matches_literal.1 hmatches] at hsplit
    simp at hsplit

-- ============================================================= the last `end` line

/-- Whether the text starts at a line that holds nothing but `end`, and no later line
of it does. -/
def StartsAtEnd (t : Text) : Prop :=
  ∃ line lines, Text.wholeLines t = line :: lines ∧ Text.trim line = "end".toList
    ∧ ∀ l ∈ lines, Text.trim l ≠ "end".toList

theorem splitAtLastEnd_eq_none {lines : List Text} (h : ∀ l ∈ lines, Text.trim l ≠ "end".toList) :
    splitAtLastEnd lines = none := by
  induction lines with
  | nil => rfl
  | cons l lines ih =>
      rw [splitAtLastEnd, ih fun x hx => h x (List.mem_cons_of_mem _ hx)]
      exact if_neg (h l (List.mem_cons_self ..))

/-- The last line that holds nothing but `end` is found behind any lines. -/
theorem splitAtLastEnd_append (h : StartsAtEnd back) (lines : List Text) :
    splitAtLastEnd (lines ++ Text.wholeLines back) = some (lines, Text.wholeLines back) := by
  obtain ⟨line, after, hlines, hend, hafter⟩ := h
  rw [hlines]
  induction lines with
  | nil =>
      rw [List.nil_append, splitAtLastEnd, splitAtLastEnd_eq_none hafter]
      exact if_pos hend
  | cons l lines ih =>
      rw [List.cons_append, splitAtLastEnd, ih]

/-- A cut is one between lines, with a line behind it. -/
theorem append_of_splitAtLastEnd {lines front back : List Text} (h : splitAtLastEnd lines = some (front, back)) :
    lines = front ++ back ∧ back ≠ [] := by
  induction lines generalizing front with
  | nil => cases h
  | cons l lines ih =>
      rw [splitAtLastEnd] at h
      split at h
      next front' back' hcut =>
        cases h
        obtain ⟨rfl, hne⟩ := ih hcut
        exact ⟨rfl, hne⟩
      next =>
        split at h
        · cases h
          exact ⟨rfl, by simp⟩
        · cases h

theorem StartsAtEnd.exists_trim (h : StartsAtEnd t) :
    ∃ a r, t = a ++ ("end".toList ++ r) ∧ ∀ c ∈ a, Text.isBlank c := by
  obtain ⟨line, lines, hlines, hend, -⟩ := h
  obtain ⟨a, b, hline, ha, -⟩ := Text.exists_trim line
  refine ⟨a, b ++ lines.flatten, ?_, ha⟩
  calc t = (Text.wholeLines t).flatten := (Text.flatten_wholeLines t).symm
    _ = (a ++ Text.trim line ++ b) ++ lines.flatten := by rw [hlines, ← hline]; rfl
    _ = a ++ ("end".toList ++ (b ++ lines.flatten)) := by rw [hend]; simp

/-- The last line that holds nothing but `end` cuts a text into whole lines and what starts
with that line. -/
theorem cut_at_end {before after : List Text} {line : Text}
    (hlines : Text.wholeLines t = before ++ line :: after) (hend : Text.trim line = "end".toList)
    (hafter : ∀ l ∈ after, Text.trim l ≠ "end".toList) :
    EndsLine before.flatten ∧ StartsAtEnd (line :: after).flatten := by
  obtain ⟨hfront, hback⟩ := Text.wholeLines_eq_append hlines (by simp)
  constructor
  · rw [← List.flatMap_id]
    exact Text.endsLine_flatMap fun l hl => (hfront l hl).1
  · exact ⟨line, after, hback, hend, hafter⟩

/-- There is such a line if any line holds nothing but `end`. -/
theorem exists_cut (h : ∃ l ∈ Text.wholeLines t, Text.trim l = "end".toList) :
    ∃ front back, t = front ++ back ∧ EndsLine front ∧ StartsAtEnd back := by
  have hlast : ∀ lines : List Text, (∃ l ∈ lines, Text.trim l = "end".toList) →
      ∃ before line after, lines = before ++ line :: after ∧ Text.trim line = "end".toList
        ∧ ∀ l ∈ after, Text.trim l ≠ "end".toList := by
    intro lines
    induction lines with
    | nil => simp
    | cons l lines ih =>
        intro hsome
        by_cases hlater : ∃ l ∈ lines, Text.trim l = "end".toList
        · obtain ⟨before, line, after, rfl, hend, hafter⟩ := ih hlater
          exact ⟨l :: before, line, after, rfl, hend, hafter⟩
        · obtain ⟨m, hm, hend⟩ := hsome
          rcases List.mem_cons.1 hm with rfl | hm
          · exact ⟨[], m, lines, rfl, hend, fun x hx htrim => hlater ⟨x, hx, htrim⟩⟩
          · exact absurd ⟨m, hm, hend⟩ hlater
  obtain ⟨before, line, after, hlines, hend, hafter⟩ := hlast _ h
  obtain ⟨hfront, hback⟩ := cut_at_end hlines hend hafter
  refine ⟨before.flatten, (line :: after).flatten, ?_, hfront, hback⟩
  rw [← List.flatten_append, ← hlines, Text.flatten_wholeLines]

theorem StartsAtEnd.unquoted (h : StartsAtEnd t) : Unquoted t := by
  obtain ⟨a, r, rfl, ha⟩ := h.exists_trim
  exact ⟨a, 'e', "nd".toList ++ r, rfl, ha, by decide, by decide⟩

theorem StartsAtEnd.head (h : StartsAtEnd t) : '\n' ∉ t.head? := by
  obtain ⟨line, lines, hlines, hend, -⟩ := h
  cases t with
  | nil => simp
  | cons c t =>
      rintro hc
      obtain rfl : c = '\n' := by simpa using hc
      rw [Text.wholeLines_newline] at hlines
      obtain ⟨rfl, -⟩ := List.cons_eq_cons.1 hlines
      exact absurd hend (by decide)

/-- A text into which actions are put: whole lines, and what starts at the last line
that holds nothing but `end`. -/
structure Frame (front back : Text) : Prop where
  whole : EndsLine front
  last : StartsAtEnd back
  noRun : NoRun (front ++ back)

-- ================================================================ runs of newlines

/-- A text without runs of newlines has none to collapse. -/
theorem collapseBlankRuns_of_noRun (h : NoRun t) : collapseBlankRuns t = t := by
  refine rewrite_of_clear (clear_iff.2 ?_)
  rintro u v rfl - hstart
  obtain ⟨s, htext, -⟩ := startsAt_literal_append.1 hstart
  rw [List.append_nil] at htext
  exact h u s (by rw [htext]; rfl)

theorem noRun_emptyBlock (hname : Name.IsNormal name) : NoRun (emptyBlock name) := by
  have hcount : name.count '\n' = 0 := List.count_eq_zero.2 (hname.notMem (by decide))
  have hline : NoRun ("  def ".toList ++ name ++ ['\n']) := by
    refine Text.noRun_of_count ?_
    simp [hcount]
  rw [emptyBlock_eq]
  exact hline.append (Text.noRun_of_count (by decide)) (by simp)

theorem endsLine_emptyBlock (name : Text) : EndsLine (emptyBlock name) := by
  rw [emptyBlock_eq, ← List.append_assoc, ← List.append_assoc]
  exact Text.endsLine_newline

theorem endsLine_emptyBlocks (names : List Text) : EndsLine (names.flatMap emptyBlock) :=
  Text.endsLine_flatMap fun name _ => endsLine_emptyBlock name

theorem unquoted_emptyBlock (name : Text) : Unquoted (emptyBlock name) :=
  ⟨"  ".toList, 'd', "ef ".toList ++ name ++ "\n  end\n\n".toList, by simp [emptyBlock_text], by decide,
    by decide, by decide⟩

-- ========================================================= the actions put in

/-- Whether an action may be put into a content and taken out: its name is that of an
action, and the content does not define it. -/
structure Fresh (content name : Text) : Prop where
  normal : Name.IsNormal name
  not_nil : name ≠ []
  absent : (definition name).occursIn content = false

/-- Whether an action has a normal name and a content does not define it, be the name empty or
not. -/
structure Undefined (content name : Text) : Prop where
  normal : Name.IsNormal name
  absent : (definition name).occursIn content = false

theorem Fresh.undefined {content : Text} (h : Fresh content name) : Undefined content name :=
  ⟨h.normal, h.absent⟩

/-- A content with actions at the last `end` line. -/
def withActions (front : Text) (names : List Text) (back : Text) : Text :=
  front ++ (names.flatMap emptyBlock ++ back)

theorem Frame.unquoted (hframe : Frame front back) (names : List Text) :
    Unquoted (names.flatMap emptyBlock ++ back) :=
  unquoted_flatMap (fun name _ => unquoted_emptyBlock name) hframe.last.unquoted

/-- An action that is not put in is not defined. -/
theorem clear_withActions (hframe : Frame front back) (hname : Undefined (front ++ back) name)
    (hnames : ∀ other ∈ names, Name.IsNormal other) (hmem : name ∉ names) :
    (definition name).Clear none (withActions front names back) [] := by
  have hline := lineBased_definition (hname.normal.notMem (c := '\n') (by decide))
  refine hline.clear_insert hframe.whole (endsLine_emptyBlocks names) (hframe.unquoted names)
    (occursIn_eq_false_iff.1 hname.absent) ?_
  refine clear_flatMap (P := fun _ => True) (by simp) trivial fun other hother before rest _ => ?_
  refine clear_emptyBlock hname.normal (hnames other hother) ?_
  rintro rfl
  exact hmem hother

theorem Frame.noRun_withActions (hframe : Frame front back)
    (hnames : ∀ name ∈ names, Name.IsNormal name) : NoRun (withActions front names back) := by
  obtain ⟨hrun, hhead⟩ := Text.noRun_flatMap (f := emptyBlock)
    (fun name hname => noRun_emptyBlock (hnames name hname)) (fun name _ => by simp [emptyBlock_text])
    hframe.noRun.right hframe.last.head
  exact hframe.noRun.left.append hrun hhead

/-- An action that is put in is defined. -/
theorem not_clear_emptyBlock (hname : Name.IsNormal name) (hbefore : OnNewLine before) :
    ¬ (definition name).Clear before (emptyBlock name) rest := by
  intro hclear
  have hprefers : (block name).Prefers before (emptyBlock name) rest := prefers_block hname hbefore
  exact clear_iff.1 hclear [] _ rfl (unquoted_emptyBlock name).not_nil
    (startsAt_definition_of_block hprefers.startsAt)

/-- Insertion adds the action behind those that are there, unless it is one of
them. -/
theorem insert_withActions (hframe : Frame front back) (hname : Undefined (front ++ back) name)
    (hnames : ∀ other ∈ names, Name.IsNormal other) :
    insert name (withActions front names back)
      = .ok (if name ∈ names then none else some (withActions front (names ++ [name]) back)) := by
  by_cases hmem : name ∈ names
  · have hdefined : (definition name).occursIn (withActions front names back) = true :=
      occursIn_of_mem hframe.whole (fun other _ => endsLine_emptyBlock other) hmem
        fun _ _ hbefore => not_clear_emptyBlock hname.normal hbefore
    rw [insert, hdefined, if_pos hmem]
    rfl
  · have hundefined := occursIn_eq_false_iff.2 (clear_withActions hframe hname hnames hmem)
    have hlines : Text.wholeLines (withActions front names back)
        = Text.wholeLines (front ++ names.flatMap emptyBlock) ++ Text.wholeLines back := by
      rw [withActions, ← List.append_assoc]
      exact Text.wholeLines_append (hframe.whole.append (endsLine_emptyBlocks names))
    rw [insert, hundefined, if_neg hmem, hlines, splitAtLastEnd_append hframe.last]
    simp [withActions, Text.flatten_wholeLines]

/-- Removal takes out the action, if it is there, and nothing else. -/
theorem remove_withActions (hframe : Frame front back) (hname : Undefined (front ++ back) name)
    (hnames : ∀ other ∈ names, Name.IsNormal other) :
    remove name (withActions front names back)
      = if name ∈ names then some (withActions front (names.filter (· ≠ name)) back) else none := by
  have hline := lineBased_definition (hname.normal.notMem (c := '\n') (by decide))
  by_cases hmem : name ∈ names
  · have hhit : ∀ before rest, OnNewLine before →
        (block name).Prefers before (emptyBlock name) rest :=
      fun _ _ hbefore => prefers_block hname.normal hbefore
    have hoccurs : (block name).occursIn (withActions front names back) = true :=
      occursIn_of_mem hframe.whole (fun other _ => endsLine_emptyBlock other) hmem
        fun before rest hbefore hclear => clear_iff.1 hclear [] _ rfl
          (unquoted_emptyBlock name).not_nil (hhit before rest hbefore).startsAt
    obtain ⟨hfront, hback⟩ := hline.clear_around hframe.whole (endsLine_emptyBlocks names)
      (hframe.unquoted names) (occursIn_eq_false_iff.1 hname.absent)
    have hdelete : (block name).delete (withActions front names back)
        = withActions front (names.filter (· ≠ name)) back := by
      refine delete_flatMap (P := fun _ => True) (· = name) hframe.whole
        (fun other _ => endsLine_emptyBlock other) (by simp) trivial ?_ ?_
        (hfront.mono fun _ _ => startsAt_definition_of_block)
        (hback.mono fun _ _ => startsAt_definition_of_block)
      · rintro other - rfl
        exact ⟨(unquoted_emptyBlock other).not_nil, hhit⟩
      · intro other hother hne before rest _
        exact (clear_emptyBlock hname.normal (hnames other hother) (Ne.symm hne)).mono
          fun _ _ => startsAt_definition_of_block
    have hrest : ∀ other ∈ names.filter (· ≠ name), Name.IsNormal other :=
      fun other hother => hnames other (List.mem_filter.1 hother).1
    rw [remove, hoccurs, hdelete, collapseBlankRuns_of_noRun (hframe.noRun_withActions hrest),
      if_pos hmem]
    rfl
  · have hclear := clear_withActions hframe hname hnames hmem
    have habsent := occursIn_eq_false_iff.2 (hclear.mono fun _ _ => startsAt_definition_of_block)
    rw [remove, habsent, if_neg hmem]
    rfl

/-- An action is defined as often as it is put in. -/
theorem length_hits_withActions (hframe : Frame front back) (hname : Undefined (front ++ back) name)
    (hnames : ∀ other ∈ names, Name.IsNormal other) :
    ((definition name).hits (withActions front names back)).length = names.count name := by
  have hline := lineBased_definition (hname.normal.notMem (c := '\n') (by decide))
  obtain ⟨hfront, hback⟩ := hline.clear_around hframe.whole (endsLine_emptyBlocks names)
    (hframe.unquoted names) (occursIn_eq_false_iff.1 hname.absent)
  rw [withActions, length_hits_flatMap (· = name) hframe.whole
    (fun other _ => endsLine_emptyBlock other) ?_ ?_ hfront hback]
  · rw [List.count_eq_countP]
    exact List.countP_congr fun other _ => by simp
  · rintro other - rfl
    refine ⟨"  def ".toList ++ other, '\n' :: "  end\n\n".toList, by simp [emptyBlock_text], by simp, ?_⟩
    intro before rest hbefore
    exact ⟨prefers_definition hname.normal hbefore,
      clear_append.2 ⟨clear_newline, clear_append.2 ⟨clear_endLine, clear_newline⟩⟩⟩
  · intro other hother hne before rest
    exact clear_emptyBlock hname.normal (hnames other hother) (Ne.symm hne)

end SiteScaffold.Patch.ControllerAction

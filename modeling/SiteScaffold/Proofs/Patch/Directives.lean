/-
Texts in which every declaration of a layout is a directive. Such a text says which layout is
set for which view: its lines on which a declaration starts are the directives (`Declares`).

The three patterns that read directives agree on it. A keyword with a quotation mark behind
it is that of a directive (`Declares.exists_line`), so that a search for the layout of a view
comes to the name and the view of one directive (`mem_of_layoutFor?`). The keyword may be at
the end of a line and the quotation mark on the next one, so no line may start with one.

If no layout and no view has two directives (`Paired`), the layout that is found for a view is
the one that is set for it.
-/
import Mathlib.Data.List.Nodup
import SiteScaffold.Proofs.Patch.LayoutDirective
import SiteScaffold.Proofs.Pattern.WholeLines

namespace SiteScaffold.Patch.Directives

open Pattern
open Text (EndsLine wholeLines)

variable {d : Text × Text} {ds : List (Text × Text)} {layout view name s t t' rest : Text}
  {before : Option Char}

-- ============================================================================== lines

/-- The line of a directive, by its layout and its view. -/
def line (d : Text × Text) : Text :=
  "  layout ".toList ++ '"' :: (d.1 ++ '"' :: (", only: :".toList ++ (d.2 ++ ['\n'])))

theorem directive_eq_line (layout view : Text) :
    LayoutDirective.directive layout view = line (layout, view) ++ ['\n'] := by
  have hend : "\n\n".toList = ['\n'] ++ ['\n'] := rfl
  rw [LayoutDirective.directive_eq, hend]
  unfold line
  simp only [List.append_assoc, List.cons_append]

/-- Whether a layout and a view have proper names. -/
structure IsDirective (d : Text × Text) : Prop where
  layout : Name.IsNormal d.1
  layout_ne_nil : d.1 ≠ []
  view : Name.IsNormal d.2
  view_ne_nil : d.2 ≠ []

theorem not_isQuote_of_mem (h : Name.IsNormal name) : ∀ c ∈ name, isQuote c = false :=
  fun c hc => Name.not_isQuote_of_isNameChar (h.isNameChar c hc)

theorem endsLine_line (d : Text × Text) : EndsLine (line d) := by
  refine .inr ⟨"  layout ".toList ++ '"' :: (d.1 ++ '"' :: (", only: :".toList ++ d.2)), ?_⟩
  unfold line
  simp only [List.append_assoc, List.cons_append]

theorem wholeLines_line (h : IsDirective d) : wholeLines (line d) = [line d] := by
  have hlayout : '\n' ∉ d.1 := h.layout.notMem (by decide)
  have hview : '\n' ∉ d.2 := h.view.notMem (by decide)
  have hone := Text.wholeLines_line
    (s := "  layout ".toList ++ '"' :: (d.1 ++ '"' :: (", only: :".toList ++ d.2))) (by simp [hlayout, hview])
  unfold line
  simpa only [List.append_assoc, List.cons_append] using hone

/-- A line is that of one proper directive at most. -/
theorem line_inj {d' : Text × Text} (h : IsDirective d) (heq : line d = line d') : d = d' := by
  have hquote : isQuote '"' = true := rfl
  have hlayout : '"' ∉ d.1 := by
    intro hmem
    rw [not_isQuote_of_mem h.layout _ hmem] at hquote
    cases hquote
  have hscope : '"' ∉ ", only: :".toList ++ (d.2 ++ ['\n']) := by
    have hfixed : '"' ∉ ", only: :".toList ∧ '"' ∉ ['\n'] := by decide
    intro hmem
    rcases List.mem_append.1 hmem with hmem | hmem
    · exact hfixed.1 hmem
    · rcases List.mem_append.1 hmem with hmem | hmem
      · rw [not_isQuote_of_mem h.view _ hmem] at hquote
        cases hquote
      · exact hfixed.2 hmem
  unfold line at heq
  obtain ⟨-, hafter⟩ := List.cons_eq_cons.1 (List.append_cancel_left heq)
  obtain ⟨y, hfront, hy⟩ := Text.exists_append_of_notMem hafter.symm hlayout
  cases y with
  | nil =>
      obtain ⟨-, hback⟩ := List.cons_eq_cons.1 hy
      have hview := List.append_cancel_right (List.append_cancel_left hback)
      rw [List.append_nil] at hfront
      exact Prod.ext hfront.symm hview
  | cons c y =>
      obtain ⟨-, hback⟩ := List.cons_eq_cons.1 hy
      refine absurd ?_ hscope
      rw [hback]
      simp

-- ==================================================== openings and quotation marks

/-- What a declaration of a layout starts with. -/
def opening : Pattern := "layout" ++ gap ++ quote

/-- Whether a text ends in the keyword of a declaration with white space behind it. -/
def EndsInKeyword (t : Text) : Prop :=
  ∃ s g, t = s ++ ("layout".toList ++ g) ∧ g ≠ [] ∧ ∀ c ∈ g, Text.isBlank c

theorem occursIn_opening_iff :
    opening.occursIn t = true ↔ ∃ s q rest, t = s ++ q :: rest ∧ EndsInKeyword s ∧ isQuote q := by
  constructor
  · intro hoccurs
    obtain ⟨s, v, rfl, -, w, rest, rfl, hmatches⟩ := exists_startsAt hoccurs
    obtain ⟨_, _, rfl, hfront, hquote⟩ := matches_append.1 hmatches
    obtain ⟨_, g, rfl, hkeyword, hgap⟩ := matches_append.1 hfront
    obtain rfl := matches_literal.1 hkeyword
    obtain ⟨q, hq, rfl⟩ := matches_quote.1 hquote
    obtain ⟨hne, hg⟩ := matches_gap.1 hgap
    exact ⟨s ++ ("layout".toList ++ g), q, rest, by simp, ⟨s, g, rfl, hne, hg⟩, hq⟩
  · rintro ⟨_, q, rest, rfl, ⟨s, g, rfl, hne, hg⟩, hq⟩
    rw [List.append_assoc]
    refine occursIn_of_startsAt ⟨"layout".toList ++ g ++ [q], rest, by simp, ?_⟩ (by simp)
    refine matches_append.2 ⟨_, _, rfl, ?_, matches_quote.2 ⟨q, hq, rfl⟩⟩
    exact matches_append.2 ⟨_, _, rfl, matches_literal.2 rfl, matches_gap.2 ⟨hne, hg⟩⟩

theorem occursIn_opening_line (d : Text × Text) : opening.occursIn (line d) = true :=
  occursIn_opening_iff.2 ⟨"  layout ".toList, '"', _, rfl, ⟨"  ".toList, " ".toList, rfl, by simp, by decide⟩, rfl⟩

/-- Whether a text starts with a quotation mark, apart from white space. -/
def StartsQuoted (t : Text) : Prop :=
  ∃ w q rest, t = w ++ q :: rest ∧ (∀ c ∈ w, Text.isBlank c) ∧ isQuote q

theorem not_startsQuoted (h : Unquoted t) : ¬ StartsQuoted t := by
  obtain ⟨a, c, r, rfl, ha, hc, hquote⟩ := h
  rintro ⟨w, q, rest, heq, hw, hq⟩
  have hblank : Text.isBlank q = false := Text.not_isBlank_of_isQuote hq
  obtain ⟨-, htail⟩ := Text.append_inj_of_span heq ha hw (by simpa using hc) (by simpa using hblank)
  obtain ⟨rfl, -⟩ := List.cons_eq_cons.1 htail
  rw [hq] at hquote
  cases hquote

/-- The lines of a text on which a declaration of a layout starts. -/
def openingLines (t : Text) : List Text := (wholeLines t).filter (opening.occursIn ·)

theorem openingLines_append (h : EndsLine s) : openingLines (s ++ t) = openingLines s ++ openingLines t := by
  rw [openingLines, Text.wholeLines_append h, List.filter_append]
  rfl

-- ============================================================== what a text declares

/-- Whether the lines of a text on which declarations start are directives, and which. No
line starts with a quotation mark, so that no declaration goes on there. -/
structure Declares (t : Text) (ds : List (Text × Text)) : Prop where
  lines : openingLines t = ds.map line
  starts : ∀ l ∈ wholeLines t, ¬ StartsQuoted l
  proper : ∀ d ∈ ds, IsDirective d

/-- A text without quotation marks declares nothing. -/
theorem declares_nil (h : ∀ c ∈ t, isQuote c = false) : Declares t [] where
  lines := by
    refine List.filter_eq_nil_iff.2 fun l hl hoccurs => ?_
    obtain ⟨front, back, rfl, -, -⟩ := Text.exists_of_mem_wholeLines hl
    obtain ⟨s, q, rest, rfl, -, hq⟩ := occursIn_opening_iff.1 hoccurs
    rw [h q (by simp)] at hq
    cases hq
  starts := by
    rintro l hl ⟨w, q, rest, rfl, -, hq⟩
    obtain ⟨front, back, rfl, -, -⟩ := Text.exists_of_mem_wholeLines hl
    rw [h q (by simp)] at hq
    cases hq
  proper := by simp

/-- A line of a directive declares it. -/
theorem declares_line (h : IsDirective d) : Declares (line d) [d] where
  lines := by
    rw [openingLines, wholeLines_line h]
    exact List.filter_cons_of_pos (occursIn_opening_line d)
  starts := by
    intro l hl
    rw [wholeLines_line h, List.mem_singleton] at hl
    rw [hl]
    have hline : line d = "  ".toList ++ 'l' :: ("ayout ".toList ++ '"' :: (d.1 ++ '"' :: (", only: :".toList
        ++ (d.2 ++ ['\n'])))) := rfl
    exact not_startsQuoted ⟨_, _, _, hline, by decide, by decide, by decide⟩
  proper := by simpa using h

namespace Declares

variable (h : Declares t ds)

include h

theorem append {es : List (Text × Text)} (ht : EndsLine t) (h' : Declares t' es) : Declares (t ++ t') (ds ++ es) where
  lines := by rw [openingLines_append ht, h.lines, h'.lines, List.map_append]
  starts := by
    intro l hl
    rw [Text.wholeLines_append ht] at hl
    exact (List.mem_append.1 hl).elim (h.starts l) (h'.starts l)
  proper := by
    intro d hd
    exact (List.mem_append.1 hd).elim (h.proper d) (h'.proper d)

/-- Of a text that is cut between two lines, each part declares some of the directives. -/
theorem split {a b : Text} (heq : t = a ++ b) (ha : EndsLine a) :
    ∃ front back, ds = front ++ back ∧ Declares a front ∧ Declares b back := by
  have hlines := h.lines
  rw [heq, openingLines_append ha] at hlines
  obtain ⟨front, back, rfl, hfront, hback⟩ := List.append_eq_map_iff.1 hlines
  have hstarts := h.starts
  rw [heq, Text.wholeLines_append ha] at hstarts
  exact ⟨front, back, rfl,
    ⟨hfront.symm, fun l hl => hstarts l (List.mem_append_left _ hl), fun d hd => h.proper d (List.mem_append_left _ hd)⟩,
    ⟨hback.symm, fun l hl => hstarts l (List.mem_append_right _ hl), fun d hd => h.proper d (List.mem_append_right _ hd)⟩⟩

/-- What is put between two lines declares its directives there. -/
theorem put {a b m : Text} {es : List (Text × Text)} (heq : t = a ++ b) (ha : EndsLine a) (hm : EndsLine m)
    (hput : Declares m es) : ∃ front back, ds = front ++ back ∧ Declares (a ++ m ++ b) (front ++ es ++ back) := by
  obtain ⟨front, back, hds, hfront, hback⟩ := h.split heq ha
  exact ⟨front, back, hds, (hfront.append ha hput).append (ha.append hm) hback⟩

/-- What declares nothing may be put between two lines. -/
theorem put_nil {a b m : Text} (heq : t = a ++ b) (ha : EndsLine a) (hm : EndsLine m) (hput : Declares m []) :
    Declares (a ++ m ++ b) ds := by
  obtain ⟨front, back, rfl, hafter⟩ := h.put heq ha hm hput
  rw [List.append_nil] at hafter
  exact hafter

/-- The directives are those whose lines are there. -/
theorem mem_wholeLines_iff : line d ∈ wholeLines t ↔ d ∈ ds := by
  constructor
  · intro hmem
    have hopening : line d ∈ openingLines t := List.mem_filter.2 ⟨hmem, occursIn_opening_line d⟩
    rw [h.lines] at hopening
    obtain ⟨d', hd', hline⟩ := List.mem_map.1 hopening
    rw [← line_inj (h.proper d' hd') hline]
    exact hd'
  · intro hd
    have hmem : line d ∈ openingLines t := by
      rw [h.lines]
      exact List.mem_map_of_mem hd
    exact (List.mem_filter.1 hmem).1

/-- A keyword with a quotation mark behind it stands on the line of a directive. -/
theorem exists_line {g : Text} {q : Char} (heq : t = s ++ ("layout".toList ++ (g ++ q :: rest)))
    (hg : ∀ c ∈ g, Text.isBlank c) (hne : g ≠ []) (hq : isQuote q) :
    ∃ d ∈ ds, ∃ m n back, rest = n ++ back ∧ line d = (m ++ g) ++ q :: n := by
  have hcut : t = (s ++ ("layout".toList ++ g)) ++ q :: rest := by
    rw [heq]
    simp
  obtain ⟨front, m, n, back, hs, rfl, hfront, hmem⟩ := Text.exists_line (c := q) (s ++ ("layout".toList ++ g)) rest
  rw [← hcut] at hmem
  -- a line that started behind the keyword would start with the quotation mark
  obtain ⟨z, rfl⟩ : ∃ z, m = z ++ ("layout".toList ++ g) := by
    rcases List.append_eq_append_iff.1 hs with ⟨y, rfl, hy⟩ | ⟨y, -, hy⟩
    · by_cases hnil : y = []
      · rw [hnil] at hy
        exact ⟨[], hy.symm⟩
      · obtain ⟨y, rfl⟩ := hfront.of_append hnil
        rw [List.append_assoc] at hy
        obtain ⟨w, -, hw⟩ := Text.exists_append_of_notMem (c := '\n') (s := y) (t := m) hy.symm (by decide)
        exact absurd ⟨m, q, n, rfl, fun c hc => hg c (by rw [hw]; simp [hc]), hq⟩ (h.starts _ hmem)
    · exact ⟨y, hy⟩
  have hopening : (z ++ ("layout".toList ++ g)) ++ q :: n ∈ openingLines t := by
    exact List.mem_filter.2 ⟨hmem, occursIn_opening_iff.2 ⟨_, q, n, rfl, ⟨z, g, rfl, hne, hg⟩, hq⟩⟩
  rw [h.lines] at hopening
  obtain ⟨d, hd, hline⟩ := List.mem_map.1 hopening
  exact ⟨d, hd, z ++ "layout".toList, n, back, rfl, by rw [hline]; simp⟩

/-- Some lines of the text declare some of the directives. -/
theorem of_sublist (hlines : (wholeLines t').Sublist (wholeLines t)) :
    ∃ ds', ds'.Sublist ds ∧ Declares t' ds' := by
  have hopening : (openingLines t').Sublist (ds.map line) := by
    rw [← h.lines]
    exact hlines.filter _
  obtain ⟨ds', hsublist, hmap⟩ := List.sublist_map_iff.1 hopening
  exact ⟨ds', hsublist, hmap, fun l hl => h.starts l (hlines.subset hl), fun d hd => h.proper d (hsublist.subset hd)⟩

end Declares

-- ============================================================= reading the directives

/-- A quotation mark behind white space on the line of a directive is the first one. -/
theorem argument_of_line {m n : Text} {b q : Char} (hd : IsDirective d) (hb : Text.isBlank b) (hq : isQuote q)
    (h : line d = (m ++ [b]) ++ q :: n) :
    n = d.1 ++ '"' :: (", only: :".toList ++ (d.2 ++ ['\n'])) := by
  have hkeyword : q ∉ "  layout ".toList := by
    intro hmem
    have hnone : ∀ c ∈ "  layout ".toList, isQuote c = false := by decide
    rw [hnone q hmem] at hq
    cases hq
  have hlayout : q ∉ d.1 := by
    intro hmem
    rw [not_isQuote_of_mem hd.layout q hmem] at hq
    cases hq
  have hscope : q ∉ ", only: :".toList ++ (d.2 ++ ['\n']) := by
    intro hmem
    have hnone : ∀ c ∈ ", only: :".toList, isQuote c = false := by decide
    have hnewline : isQuote '\n' = false := by decide
    simp only [List.mem_append, List.mem_singleton] at hmem
    rcases hmem with hmem | hmem | rfl
    · rw [hnone q hmem] at hq
      cases hq
    · rw [not_isQuote_of_mem hd.view q hmem] at hq
      cases hq
    · rw [hnewline] at hq
      cases hq
  obtain ⟨y, hfront, hy⟩ := Text.exists_append_of_notMem h.symm hkeyword
  cases y with
  | nil => exact (List.cons_eq_cons.1 hy).2.symm
  | cons o y =>
      -- it would be the second one, behind the name of the layout
      obtain ⟨rfl, hrest⟩ := List.cons_eq_cons.1 hy
      obtain ⟨z, rfl, hz⟩ := Text.exists_append_of_notMem hrest.symm hlayout
      cases z with
      | nil =>
          rw [List.append_nil] at hfront
          have hlast := congrArg List.getLast? hfront
          obtain ⟨r, c, hr⟩ := List.eq_nil_or_concat' d.1 |>.resolve_left hd.layout_ne_nil
          rw [hr, ← List.cons_append, ← List.append_assoc, List.getLast?_concat, List.getLast?_concat] at hlast
          cases hlast
          have hname := hd.layout.isNameChar b (by rw [hr]; simp)
          rw [Name.not_isBlank_of_isNameChar hname] at hb
          cases hb
      | cons o' z =>
          obtain ⟨-, hscope'⟩ := List.cons_eq_cons.1 hz
          refine absurd ?_ hscope
          rw [hscope']
          simp

namespace Declares

variable (h : Declares t ds)

include h

/-- What follows a keyword with a quotation mark is the rest of a directive. -/
theorem argument_of_keyword {g : Text} {q : Char} (heq : t = s ++ ("layout".toList ++ (g ++ q :: rest)))
    (hne : g ≠ []) (hg : ∀ c ∈ g, Text.isBlank c) (hq : isQuote q) :
    ∃ d ∈ ds, ∃ back, rest = d.1 ++ '"' :: (", only: :".toList ++ (d.2 ++ '\n' :: back)) := by
  obtain ⟨d, hd, m, n, back, rfl, hline⟩ := h.exists_line heq hg hne hq
  obtain ⟨g, b, rfl⟩ := List.eq_nil_or_concat' g |>.resolve_left hne
  rw [← List.append_assoc] at hline
  refine ⟨d, hd, back, ?_⟩
  rw [argument_of_line (h.proper d hd) (hg b (by simp)) hq hline]
  simp

end Declares

/-- The scope of a directive that names one view. -/
theorem scope_of_directive {x sl sc back : Text} (hd : IsDirective d) (hx : ∀ c ∈ x, inLine c)
    (hsl : ∀ c ∈ sl, Text.isBlank c) (hsc : ∀ c ∈ (sc ++ rest).head?, Text.isBlank c = false)
    (h : x ++ ("only:".toList ++ (sl ++ (sc ++ rest))) = ", only: :".toList ++ (d.2 ++ '\n' :: back)) :
    sc ++ rest = ':' :: (d.2 ++ '\n' :: back) := by
  have honly : "only:".toList = "only".toList ++ [':'] := rfl
  have hscope : ", only: :".toList = ", only".toList ++ ':' :: (" ".toList ++ [':']) := rfl
  have hcolons : ':' ∉ ", only".toList ∧ ':' ∉ " ".toList := by decide
  have hview : ':' ∉ d.2 := hd.view.notMem (by decide)
  have hcut : (x ++ "only".toList) ++ ':' :: (sl ++ (sc ++ rest))
      = ", only".toList ++ ':' :: (" ".toList ++ ':' :: (d.2 ++ '\n' :: back)) := by
    rw [honly, hscope] at h
    simpa only [List.append_assoc, List.cons_append, List.nil_append] using h
  have hafter : sl ++ (sc ++ rest) = " ".toList ++ ':' :: (d.2 ++ '\n' :: back) := by
    obtain ⟨y, hfront, hy⟩ := Text.exists_append_of_notMem hcut hcolons.1
    cases y with
    | nil => exact (List.cons_eq_cons.1 hy).2.symm
    | cons c y =>
        -- the word would end at the second colon, or beyond the line
        obtain ⟨rfl, hrest⟩ := List.cons_eq_cons.1 hy
        obtain ⟨z, rfl, hz⟩ := Text.exists_append_of_notMem hrest.symm hcolons.2
        cases z with
        | nil =>
            have hword : "only".toList = "onl".toList ++ ['y'] := rfl
            have hspace : ", only".toList ++ ':' :: (" ".toList ++ []) = ", only:".toList ++ [' '] := rfl
            rw [hspace, hword, ← List.append_assoc] at hfront
            obtain ⟨-, hlast⟩ := List.append_inj' hfront rfl
            cases hlast
        | cons c z =>
            obtain ⟨-, hrest⟩ := List.cons_eq_cons.1 hz
            obtain ⟨w, rfl, hw⟩ := Text.exists_append_of_notMem hrest.symm hview
            cases w with
            | nil => cases hw
            | cons c w =>
                obtain ⟨rfl, -⟩ := List.cons_eq_cons.1 hw
                have hmem : '\n' ∈ x ++ "only".toList := by
                  rw [hfront]
                  simp
                rcases List.mem_append.1 hmem with hmem | hmem
                · have hline := hx _ hmem
                  cases hline
                · exact absurd hmem (by decide)
  have hcolon : ∀ c ∈ (':' :: (d.2 ++ '\n' :: back)).head?, Text.isBlank c = false := by
    have hc : Text.isBlank ':' = false := by decide
    simpa using hc
  exact (Text.append_inj_of_span hafter hsl (by decide) hsc hcolon).2

/-- A scope that names a view is its symbol, or starts with a bracket. -/
theorem of_matches_scopeOf {sc : Text} (hview : Name.IsNormal view) (hne : view ≠ [])
    (h : (LayoutDirective.scopeOf view).Matches before sc rest) :
    (sc = ':' :: view ∧ ∀ c ∈ rest.head?, Name.isNameChar c = false)
      ∨ ∃ c r, sc = c :: r ∧ c ≠ ':' ∧ Text.isBlank c = false := by
  rcases matches_or.1 h with h | h
  · rcases matches_or.1 h with h | h
    · obtain ⟨_, _, rfl, hsymbol, hboundary⟩ := matches_append.1 h
      obtain ⟨_, name, rfl, hcolon, hname⟩ := matches_append.1 hsymbol
      obtain rfl := matches_literal.1 hcolon
      obtain rfl : view = name := (matches_literal.1 hname).symm
      obtain ⟨rfl, hedge⟩ := matches_boundary.1 hboundary
      refine .inl ⟨by rw [List.append_nil]; rfl, fun c hc => ?_⟩
      obtain ⟨r, e, hlast⟩ := List.eq_nil_or_concat' view |>.resolve_left hne
      have he : Text.isWord e = true :=
        Name.isWord_of_isNameChar (hview.isNameChar e (by rw [hlast]; simp))
      rw [hlast, ← List.append_assoc, lastAfter_concat, hc] at hedge
      have hword : Text.isWord c = false := by simpa [he] using hedge
      rw [Bool.eq_false_iff]
      intro hnameChar
      rw [Name.isWord_of_isNameChar hnameChar] at hword
      cases hword
    · obtain ⟨_, _, rfl, hfront, -⟩ := matches_append.1 h
      obtain ⟨_, _, rfl, hfront, -⟩ := matches_append.1 hfront
      obtain ⟨_, _, rfl, hfront, -⟩ := matches_append.1 hfront
      obtain ⟨_, _, rfl, hbracket, -⟩ := matches_append.1 hfront
      obtain rfl := matches_literal.1 hbracket
      exact .inr ⟨'[', _, rfl, by decide, by decide⟩
  · obtain ⟨_, _, rfl, hfront, -⟩ := matches_append.1 h
    obtain ⟨_, _, rfl, hfront, -⟩ := matches_append.1 hfront
    obtain ⟨_, _, rfl, hfront, -⟩ := matches_append.1 hfront
    obtain ⟨_, _, rfl, hbracket, -⟩ := matches_append.1 hfront
    obtain rfl := matches_literal.1 hbracket
    exact .inr ⟨'%', _, rfl, by decide, by decide⟩

/-- The parts of a directive whose scope names a view. -/
theorem accepts_directiveFor {kept : List (Nat × Text)} {u : Text}
    (h : (LayoutDirective.directiveFor view).Accepts before u rest kept) :
    ∃ g o name c x sl sc before',
      u = "layout".toList ++ (g ++ o :: (name ++ c :: (x ++ ("only:".toList ++ (sl ++ sc)))))
        ∧ kept = [(1, name)] ∧ (g ≠ [] ∧ ∀ d ∈ g, Text.isBlank d) ∧ isQuote o
        ∧ (∀ d ∈ name, isQuote d = false) ∧ isQuote c ∧ (∀ d ∈ x, inLine d) ∧ (∀ d ∈ sl, Text.isBlank d)
        ∧ (LayoutDirective.scopeOf view).Matches before' sc rest := by
  have hfree : (LayoutDirective.scopeOf view).captureFree = true := by
    simp [LayoutDirective.scopeOf, captureFree]
  obtain ⟨_, sc, rfl, _, _, rfl, h, hscope⟩ := accepts_append.1 h
  obtain ⟨_, sl, rfl, _, _, rfl, h, hslack⟩ := accepts_append.1 h
  obtain ⟨_, _, rfl, _, _, rfl, h, honly⟩ := accepts_append.1 h
  obtain ⟨_, x, rfl, _, _, rfl, h, hx⟩ := accepts_append.1 h
  obtain ⟨_, _, rfl, _, _, rfl, h, hclose⟩ := accepts_append.1 h
  obtain ⟨_, name, rfl, _, _, rfl, h, hcapture⟩ := accepts_append.1 h
  obtain ⟨_, _, rfl, _, _, rfl, h, hopen⟩ := accepts_append.1 h
  obtain ⟨_, g, rfl, _, _, rfl, hkeyword, hgap⟩ := accepts_append.1 h
  obtain ⟨inner, rfl, hinner⟩ := accepts_capture.1 hcapture
  obtain ⟨hquoted, rfl⟩ := (accepts_iff rfl).1 hinner
  obtain ⟨hlead, rfl⟩ := (accepts_iff (captureFree_literal _)).1 hkeyword
  obtain ⟨hword, rfl⟩ := (accepts_iff (captureFree_literal _)).1 honly
  obtain ⟨hblank, rfl⟩ := (accepts_iff rfl).1 hgap
  obtain ⟨hmark, rfl⟩ := (accepts_iff rfl).1 hopen
  obtain ⟨hmark', rfl⟩ := (accepts_iff rfl).1 hclose
  obtain ⟨hline, rfl⟩ := (accepts_iff rfl).1 hx
  obtain ⟨hblank', rfl⟩ := (accepts_iff rfl).1 hslack
  obtain ⟨hnames, rfl⟩ := (accepts_iff hfree).1 hscope
  obtain rfl := matches_literal.1 hlead
  obtain rfl := matches_literal.1 hword
  obtain ⟨o, ho, rfl⟩ := matches_quote.1 hmark
  obtain ⟨c, hc, rfl⟩ := matches_quote.1 hmark'
  obtain ⟨-, hname⟩ := matches_oneOrMore.1 hquoted
  exact ⟨g, o, name, c, x, sl, sc, _, by simp, rfl, matches_gap.1 hblank, ho,
    fun d hd => by simpa using hname d hd, hc, matches_many.1 hline, matches_slack.1 hblank', hnames⟩

/-- Where a directive for a view occurs, a search for its layout comes to one. -/
theorem exists_layoutFor? (h : (LayoutDirective.directiveFor view).occursIn t = true) :
    ∃ layout, LayoutDirective.layoutFor? view t = some layout := by
  obtain ⟨found, hfound⟩ := Option.isSome_iff_exists.1 h
  refine ⟨found.2.1.group 1, ?_⟩
  rw [LayoutDirective.layoutFor?, hfound]
  rfl

/-- A search for the layout of a view comes to a directive for that view. -/
theorem mem_of_layoutFor? (h : Declares t ds) (hview : Name.IsNormal view) (hne : view ≠ [])
    (hfound : LayoutDirective.layoutFor? view t = some layout) : (layout, view) ∈ ds := by
  obtain ⟨⟨front, hit, back⟩, hfirst, rfl⟩ := Option.map_eq_some_iff.1 hfound
  obtain ⟨heq, -, haccepts⟩ := accepts_of_first? hfirst
  obtain ⟨g, o, name, c, x, sl, sc, before', htext, hkept, ⟨hgap, hg⟩, ho, hname, hc, hx, hsl, hscope⟩ :=
    accepts_directiveFor haccepts
  have hgroup : hit.group 1 = name := by
    rw [Hit.group, Hit.group?, hkept]
    rfl
  show (hit.group 1, view) ∈ ds
  rw [hgroup]
  rw [htext] at heq
  simp only [List.append_assoc, List.cons_append] at heq
  obtain ⟨d, hd, last, hrest⟩ := h.argument_of_keyword heq hgap hg ho
  have hdirective := h.proper d hd
  -- the argument ends at the next quotation mark
  obtain ⟨rfl, hafter⟩ := Text.append_inj_of_span (P := fun e => !isQuote e) hrest
    (fun e he => by simp [hname e he]) (fun e he => by simp [not_isQuote_of_mem hdirective.layout e he])
    (by simp [hc]) (by simp [isQuote])
  obtain ⟨-, hafter⟩ := List.cons_eq_cons.1 hafter
  rcases of_matches_scopeOf hview hne hscope with ⟨rfl, hnext⟩ | ⟨e, r, rfl, hcolon, hblank⟩
  · have hstart : ∀ c ∈ ((':' :: view) ++ back).head?, Text.isBlank c = false := by
      have hc : Text.isBlank ':' = false := by decide
      simpa using hc
    have hsymbol := scope_of_directive hdirective hx hsl hstart hafter
    obtain ⟨-, hnames⟩ := List.cons_eq_cons.1 hsymbol
    have hnewline : ∀ c ∈ ('\n' :: last).head?, Name.isNameChar c = false := by
      have hc : Name.isNameChar '\n' = false := by decide
      simpa using hc
    obtain ⟨rfl, -⟩ := Text.append_inj_of_span hnames hview.isNameChar hdirective.view.isNameChar hnext hnewline
    exact hd
  · have hstart : ∀ c ∈ ((e :: r) ++ back).head?, Text.isBlank c = false := by simpa using hblank
    have hsymbol := scope_of_directive hdirective hx hsl hstart hafter
    exact absurd (List.cons_eq_cons.1 hsymbol).1 hcolon

-- ================================================================ finding a directive

/-- The line of a directive from its keyword on. -/
theorem line_eq (d : Text × Text) :
    ∃ r, line d = "  ".toList ++ ("layout".toList ++ (" ".toList ++ '"' :: (d.1 ++ '"' :: r)))
      ∧ r = ", ".toList ++ ("only:".toList ++ (" ".toList ++ ((":".toList ++ d.2) ++ ['\n']))) := by
  refine ⟨_, ?_, rfl⟩
  unfold line
  simp

/-- A directive is found by its view. -/
theorem startsAt_directiveFor (hd : IsDirective d) :
    ∃ u, line d = "  ".toList ++ u ∧ u ≠ []
      ∧ ∀ before rest, (LayoutDirective.directiveFor d.2).StartsAt before (u ++ rest) := by
  obtain ⟨r, hline, rfl⟩ := line_eq d
  refine ⟨_, hline, by simp, fun before rest => ?_⟩
  refine ⟨"layout".toList ++ " ".toList ++ ['"'] ++ d.1 ++ ['"'] ++ ", ".toList ++ "only:".toList ++ " ".toList
    ++ (":".toList ++ d.2), '\n' :: rest, by simp, ?_⟩
  have hscope : ∀ before, (LayoutDirective.scopeOf d.2).Matches before (":".toList ++ d.2) ('\n' :: rest) := by
    intro before
    have hedge : boundary.Matches (lastAfter before (":".toList ++ d.2)) [] ('\n' :: rest) := by
      obtain ⟨r, e, hlast⟩ := List.eq_nil_or_concat' d.2 |>.resolve_left hd.view_ne_nil
      have he : Text.isWord e = true :=
        Name.isWord_of_isNameChar (hd.view.isNameChar e (by rw [hlast]; simp))
      have hnewline : Text.isWord '\n' = false := by decide +kernel
      rw [hlast, ← List.append_assoc, lastAfter_concat]
      exact matches_boundary.2 ⟨rfl, by simp [he, hnewline]⟩
    refine matches_or.2 (.inl (matches_or.2 (.inl ?_)))
    refine matches_append.2 ⟨":".toList ++ d.2, [], (List.append_nil _).symm, ?_, hedge⟩
    exact matches_append.2 ⟨_, _, rfl, matches_literal.2 rfl, matches_literal.2 rfl⟩
  have hblank : ∀ c ∈ " ".toList, Text.isBlank c := by decide
  have hline : ∀ c ∈ ", ".toList, inLine c := by decide
  have hname : ∀ c ∈ d.1, (!isQuote c) = true := fun c hc => by simp [not_isQuote_of_mem hd.layout c hc]
  refine matches_append.2 ⟨_, _, rfl, ?_, hscope _⟩
  refine matches_append.2 ⟨_, _, rfl, ?_, matches_slack.2 hblank⟩
  refine matches_append.2 ⟨_, _, rfl, ?_, matches_literal.2 rfl⟩
  refine matches_append.2 ⟨_, _, rfl, ?_, matches_many.2 hline⟩
  refine matches_append.2 ⟨_, _, rfl, ?_, matches_quote.2 ⟨_, rfl, rfl⟩⟩
  refine matches_append.2 ⟨_, _, rfl, ?_, matches_capture.2 (matches_oneOrMore.2 ⟨hd.layout_ne_nil, hname⟩)⟩
  refine matches_append.2 ⟨_, _, rfl, ?_, matches_quote.2 ⟨_, rfl, rfl⟩⟩
  exact matches_append.2 ⟨_, _, rfl, matches_literal.2 rfl, matches_gap.2 ⟨by simp, hblank⟩⟩

/-- The layout of a view is that of a directive for it, if no other directive is for it. -/
theorem layoutFor?_eq_some_iff (h : Declares t ds) (hviews : (ds.map Prod.snd).Nodup)
    (hview : Name.IsNormal view) (hne : view ≠ []) :
    LayoutDirective.layoutFor? view t = some layout ↔ (layout, view) ∈ ds := by
  refine ⟨mem_of_layoutFor? h hview hne, fun hmem => ?_⟩
  obtain ⟨u, hline, hu, hstarts⟩ := startsAt_directiveFor (h.proper _ hmem)
  obtain ⟨front, back, htext, -, -⟩ := Text.exists_of_mem_wholeLines (h.mem_wholeLines_iff.2 hmem)
  have hoccurs : (LayoutDirective.directiveFor view).occursIn t = true := by
    rw [htext, hline, List.append_assoc, ← List.append_assoc]
    exact occursIn_of_startsAt (hstarts _ back) (by simp [hu])
  obtain ⟨other, hsome⟩ := exists_layoutFor? hoccurs
  have hother := mem_of_layoutFor? h hview hne hsome
  rw [hsome, Option.some_inj]
  exact congrArg Prod.fst (List.inj_on_of_nodup_map hviews hother hmem rfl)

/-- A line that declares the layout starts at each directive for it. -/
theorem startsAt_directiveLine (hd : IsDirective d) (hbefore : OnNewLine before) :
    (LayoutDirective.directiveLine d.1).StartsAt before (line d ++ rest) := by
  obtain ⟨r, hline, rfl⟩ := line_eq d
  have hscope : ∀ c ∈ ", ".toList ++ ("only:".toList ++ (" ".toList ++ (":".toList ++ d.2))), inLine c := by
    intro c hc
    have hfixed : ∀ c ∈ ", ".toList ++ ("only:".toList ++ (" ".toList ++ ":".toList)), inLine c := by decide
    simp only [← List.append_assoc] at hc hfixed
    rcases List.mem_append.1 hc with hc | hc
    · exact hfixed c hc
    · have hne := Name.ne_of_isNameChar (hd.view.isNameChar c hc) (d := '\n') (by decide)
      simp [inLine, hne]
  refine ⟨[] ++ "  ".toList ++ ("layout".toList ++ " ".toList ++ ('"' :: d.1 ++ ['"']))
    ++ (", ".toList ++ ("only:".toList ++ (" ".toList ++ (":".toList ++ d.2)))) ++ ['\n'], rest,
    by rw [hline]; simp, ?_⟩
  have hdeclaration : ∀ before rest, (LayoutDirective.declaration d.1).Matches before
      ("layout".toList ++ " ".toList ++ ('"' :: d.1 ++ ['"'])) rest := fun before rest =>
    matches_append.2 ⟨_, _, rfl, matches_append.2 ⟨_, _, rfl, matches_literal.2 rfl,
      matches_gap.2 ⟨by simp, by decide⟩⟩, matches_quoted.2 ⟨_, _, rfl, rfl, rfl⟩⟩
  have hbreak : ∀ before, lineBreakAndBlank.Matches before ['\n'] rest := fun before =>
    matches_or.2 (.inl (matches_append.2 ⟨['\n'], [], rfl, matches_literal.2 rfl, matches_optional.2 (.inr rfl)⟩))
  refine matches_append.2 ⟨_, _, rfl, ?_, hbreak _⟩
  refine matches_append.2 ⟨_, _, rfl, ?_, matches_many.2 hscope⟩
  refine matches_append.2 ⟨_, _, rfl, ?_, hdeclaration _ _⟩
  exact matches_append.2 ⟨_, _, rfl, matches_lineStart.2 ⟨rfl, hbefore⟩, matches_spacing.2 (by decide)⟩

/-- A layout is found where a text declares it. -/
theorem occursIn_declaration_iff (h : Declares t ds) (hlayout : Name.IsNormal layout) :
    (LayoutDirective.declaration layout).occursIn t = true ↔ layout ∈ ds.map Prod.fst := by
  constructor
  · intro hoccurs
    obtain ⟨u, v, htext, -, hstart⟩ := exists_startsAt hoccurs
    obtain ⟨g, o, c, r, rfl, hne, hg, ho, hc⟩ := LayoutDirective.startsAt_declaration.1 hstart
    obtain ⟨d, hd, back, hargument⟩ := h.argument_of_keyword htext hne hg ho
    obtain ⟨rfl, -⟩ := Text.append_inj_of_span (P := fun e => !isQuote e) hargument
      (fun e he => by simp [not_isQuote_of_mem hlayout e he])
      (fun e he => by simp [not_isQuote_of_mem (h.proper d hd).layout e he]) (by simp [hc]) (by simp [isQuote])
    exact List.mem_map_of_mem hd
  · intro hmem
    obtain ⟨d, hd, rfl⟩ := List.mem_map.1 hmem
    obtain ⟨r, hline, -⟩ := line_eq d
    obtain ⟨front, back, htext, -, -⟩ := Text.exists_of_mem_wholeLines (h.mem_wholeLines_iff.2 hd)
    rw [htext, hline, List.append_assoc, ← List.append_assoc]
    refine occursIn_of_startsAt (LayoutDirective.startsAt_declaration.2 ?_) (by simp)
    exact ⟨" ".toList, '"', '"', r ++ back, by simp, by simp, by decide, rfl, rfl⟩

/-- What finds only what is declared once is found on one line at most. -/
theorem countP_occursIn_le_one {p : Pattern} {f : Text × Text → Text} {x : Text}
    (hread : ∀ t ds, Declares t ds → p.occursIn t = true → x ∈ ds.map f) (h : Declares t ds)
    (hnodup : (ds.map f).Nodup) : (wholeLines t).countP (p.occursIn ·) ≤ 1 := by
  have hopening : ∀ l ∈ wholeLines t, p.occursIn l = true → opening.occursIn l = true := by
    intro l hl hoccurs
    cases hnone : opening.occursIn l with
    | true => rfl
    | false =>
        have hone := Text.wholeLines_of_mem hl
        have hdeclares : Declares l [] :=
          { lines := by
              rw [openingLines, hone]
              exact List.filter_cons_of_neg (by simp [hnone])
            starts := by
              rw [hone]
              simpa using h.starts l hl
            proper := by simp }
        cases hread l [] hdeclares hoccurs
  have hline : ∀ d ∈ ds, p.occursIn (line d) = true → (f d == x) = true := by
    intro d hd hoccurs
    simpa using (List.mem_singleton.1 (hread _ _ (declares_line (h.proper d hd)) hoccurs)).symm
  calc (wholeLines t).countP (p.occursIn ·) = (openingLines t).countP (p.occursIn ·) := by
        rw [openingLines, List.countP_filter]
        refine List.countP_congr fun l hl => ?_
        simpa using hopening l hl
    _ = ds.countP fun d => p.occursIn (line d) := by
        rw [h.lines, List.countP_map]
        rfl
    _ ≤ ds.countP fun d => f d == x := List.countP_mono_left hline
    _ = (ds.map f).count x := by
        rw [List.count_eq_countP, List.countP_map]
        rfl
    _ ≤ 1 := List.nodup_iff_count_le_one.1 hnodup x

-- ================================================================ layouts and views in pairs

/-- Whether a text declares the pairs of a layout and a view, no layout twice and no view
twice. -/
structure Paired (t : Text) (ds : List (Text × Text)) : Prop extends Declares t ds where
  layouts : (ds.map Prod.fst).Nodup
  views : (ds.map Prod.snd).Nodup

theorem paired_nil (h : ∀ c ∈ t, isQuote c = false) : Paired t [] :=
  ⟨declares_nil h, by simp, by simp⟩

namespace Paired

variable (h : Paired t ds)

include h

/-- A view is named by the directive that a search for its layout comes to. -/
theorem layoutFor?_eq_some_iff (hview : Name.IsNormal view) (hne : view ≠ []) :
    LayoutDirective.layoutFor? view t = some layout ↔ (layout, view) ∈ ds :=
  Directives.layoutFor?_eq_some_iff h.toDeclares h.views hview hne

/-- No layout is declared on two lines. -/
theorem countP_declaration_le_one (hlayout : Name.IsNormal layout) :
    (wholeLines t).countP ((LayoutDirective.declaration layout).occursIn ·) ≤ 1 := by
  have hread : ∀ t ds, Declares t ds → (LayoutDirective.declaration layout).occursIn t = true →
      layout ∈ ds.map Prod.fst := fun t ds h => (occursIn_declaration_iff h hlayout).1
  exact countP_occursIn_le_one hread h.toDeclares h.layouts

/-- No view is named on two lines. -/
theorem countP_directiveFor_le_one (hview : Name.IsNormal view) (hne : view ≠ []) :
    (wholeLines t).countP ((LayoutDirective.directiveFor view).occursIn ·) ≤ 1 := by
  have hread : ∀ t ds, Declares t ds → (LayoutDirective.directiveFor view).occursIn t = true →
      view ∈ ds.map Prod.snd := by
    intro t ds h hoccurs
    obtain ⟨layout, hfound⟩ := exists_layoutFor? hoccurs
    exact List.mem_map_of_mem (mem_of_layoutFor? h hview hne hfound)
  exact countP_occursIn_le_one hread h.toDeclares h.views

theorem of_sublist {ds' : List (Text × Text)} (hdeclares : Declares t' ds') (hsub : ds'.Sublist ds) :
    Paired t' ds' :=
  ⟨hdeclares, h.layouts.sublist (hsub.map _), h.views.sublist (hsub.map _)⟩

end Paired

end SiteScaffold.Patch.Directives

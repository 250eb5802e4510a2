/-
Actions as the lines of a text. The text is walked over line by line: at a line that defines the
action, with a line that closes it further on, the walk drops the lines up to the first such line,
and a blank line behind that, and goes on behind them; every other line it keeps (`parts`). What
it keeps, with its runs of newlines cut, is what is left of the text (`scan`).

The walk reads lines from the front, with no search in them (`defines`, `closes`, `isBlankLine`).
They are lines that a search for the action tells apart, too (`lineHolds_isHead_iff`,
`lineHolds_isClose_iff`). How far the walk goes at once is told by the first closing line
(`of_closingLength`), and it leaves out no line (`flatMap_lines_parts`).
-/
import SiteScaffold.Proofs.Patch.BlankRuns
import SiteScaffold.Proofs.Patch.Presence

namespace SiteScaffold.Patch.ControllerAction

open Pattern
open Text (EndsLine FirstLine wholeLines)

variable {name other line e rest t : Text} {before : Option Char}

-- ============================================================================ the walk

/-- The ends of a line that has its newline. -/
def newlines : List Text := ["\n", "\r\n"]

/-- The ends of a line: a carriage return may stand there, and at the end of the text the newline
may be missing. -/
def lineEnds : List Text := ["", "\r", "\n", "\r\n"]

/-- Whether a line, with its newline, holds a definition of the action and nothing else. -/
def defines (name line : Text) : Bool :=
  (Text.after? "def" (line.dropWhile isSpacing)).any fun rest => rest.head?.any isSpacing
    && (Text.after? name (rest.dropWhile isSpacing)).any fun rest => newlines.contains (rest.dropWhile isSpacing)

/-- Whether a line holds `end` and nothing else. -/
def closes (line : Text) : Bool :=
  (Text.after? "end" (line.dropWhile isSpacing)).any fun rest => lineEnds.contains (rest.dropWhile isSpacing)

/-- Whether a line, with its newline, holds nothing. -/
def isBlankLine (line : Text) : Bool := newlines.contains (line.dropWhile isSpacing)

/-- How many lines there are up to the first one that closes an action, and a blank one behind it. -/
def closingLength : List Text → Option Nat
  | [] => none
  | line :: lines =>
    if closes line then some (if lines.head?.any isBlankLine then 2 else 1)
    else (closingLength lines).map (· + 1)

/-- What the walk makes of some lines. -/
inductive Part where
  /-- A line is kept. -/
  | keep (line : Text)
  /-- The lines of an action are dropped. -/
  | drop (lines : List Text)
  deriving Repr, DecidableEq

namespace Part

/-- The lines. -/
def lines : Part → List Text
  | .keep line => [line]
  | .drop lines => lines

/-- Those of them that are kept. -/
def kept : Part → List Text
  | .keep line => [line]
  | .drop _ => []

/-- Whether they are dropped. -/
def isDrop : Part → Bool
  | .keep _ => false
  | .drop _ => true

end Part

/-- The walk from a line on, while some lines of an action are still to be passed over. -/
def parts (name : Text) : (skip : Nat) → List Text → List Part
  | _, [] => []
  | skip + 1, _ :: lines => parts name skip lines
  | 0, line :: lines =>
    match if defines name line then closingLength lines else none with
    | some k => .drop (line :: lines.take k) :: parts name k lines
    | none => .keep line :: parts name 0 lines

/-- The text without the actions that the walk drops, if it drops any. -/
def scan (name content : Text) : Option Text :=
  let walked := parts name 0 (wholeLines content)
  if walked.any Part.isDrop then some (Text.cutRuns 0 (walked.flatMap Part.kept).flatten) else none

-- ======================================================================= reading a line

/-- The end of a line does not start with a space, nor with a letter of a name. -/
theorem head_of_mem_lineEnds (he : e ∈ lineEnds) : ∀ c ∈ e.head?, isSpacing c = false ∧ Name.isNameChar c = false := by
  have hall : ∀ e ∈ lineEnds, e.head?.all (fun c => !isSpacing c && !Name.isNameChar c) = true := by decide
  intro c hc
  simpa using (Option.all_eq_true _ _).1 (hall e he) c hc

theorem mem_lineEnds (he : e ∈ newlines) : e ∈ lineEnds := by
  have hall : ∀ e ∈ newlines, e ∈ lineEnds := by decide
  exact hall e he

theorem endsLine_of_mem_newlines (he : e ∈ newlines) : ∃ r, e = r ++ ['\n'] := by
  have hall : ∀ e ∈ newlines, e = e.dropLast ++ ['\n'] := by decide
  exact ⟨_, hall e he⟩

/-- A line with its newline ends in one. -/
theorem mem_newlines_of_endsLine {u : Text} (hu : '\n' ∉ u) (he : e ∈ lineEnds) (hends : EndsLine (u ++ e))
    (hne : u ++ e ≠ []) : e ∈ newlines := by
  have hlast : ∀ e ∈ lineEnds, e ∈ newlines ∨ '\n' ∉ e := by decide
  obtain ⟨s, hs⟩ := hends.resolve_left hne
  have hmem : '\n' ∈ u ++ e := by
    rw [hs]
    simp
  exact (hlast e he).resolve_right fun hnone => (List.mem_append.1 hmem).elim hu hnone

theorem mem_newlines_iff : e ∈ newlines ↔ newline.Matches before e rest := by
  rw [matches_newline, or_comm]
  simp [newlines]

theorem isBlankLine_iff : isBlankLine line = true ↔ ∃ a e, line = a ++ e ∧ (∀ c ∈ a, isSpacing c) ∧ e ∈ newlines := by
  unfold isBlankLine
  rw [List.contains_iff_mem]
  constructor
  · intro h
    obtain ⟨a, e, hline, ha, he⟩ := exists_dropWhile_isSpacing line
    exact ⟨a, e, hline, ha, he ▸ h⟩
  · rintro ⟨a, e, hline, ha, he⟩
    rwa [(dropWhile_isSpacing_eq_iff fun c hc => (head_of_mem_lineEnds (mem_lineEnds he) c hc).1).2 ⟨a, hline, ha⟩]

theorem closes_iff : closes line = true ↔ ∃ a b e, line = a ++ ("end".toList ++ (b ++ e))
    ∧ (∀ c ∈ a, isSpacing c) ∧ (∀ c ∈ b, isSpacing c) ∧ e ∈ lineEnds := by
  unfold closes
  rw [Option.any_eq_true]
  simp only [List.contains_iff_mem, Text.after?_eq_some_iff]
  constructor
  · rintro ⟨rest, hword, he⟩
    obtain ⟨a, hline, ha⟩ := (dropWhile_isSpacing_eq_iff (by simp [isSpacing])).1 hword
    obtain ⟨b, e, rfl, hb, heq⟩ := exists_dropWhile_isSpacing rest
    exact ⟨a, b, e, hline, ha, hb, heq ▸ he⟩
  · rintro ⟨a, b, e, hline, ha, hb, he⟩
    refine ⟨b ++ e, (dropWhile_isSpacing_eq_iff (by simp [isSpacing])).2 ⟨a, hline, ha⟩, ?_⟩
    rwa [(dropWhile_isSpacing_eq_iff fun c hc => (head_of_mem_lineEnds he c hc).1).2 ⟨b, rfl, hb⟩]

theorem not_isSpacing_head (hname : Name.IsNormal name) (hne : name ≠ []) (t : Text) :
    ∀ c ∈ (name ++ t).head?, isSpacing c = false := by
  intro c hc
  obtain ⟨f, name, rfl⟩ := List.exists_cons_of_ne_nil hne
  obtain rfl : f = c := by simpa using hc
  exact not_isSpacing_of_isNameChar (hname.isNameChar f (List.mem_cons_self ..))

theorem defines_iff (hname : Name.IsNormal name) (hne : name ≠ []) :
    defines name line = true ↔ ∃ a b d e, line = a ++ ("def".toList ++ (b ++ (name ++ (d ++ e))))
      ∧ (∀ c ∈ a, isSpacing c) ∧ b ≠ [] ∧ (∀ c ∈ b, isSpacing c) ∧ (∀ c ∈ d, isSpacing c) ∧ e ∈ newlines := by
  have hletter := not_isSpacing_head hname hne
  have hhead : ∀ {e : Text}, e ∈ newlines → ∀ c ∈ e.head?, isSpacing c = false :=
    fun he c hc => (head_of_mem_lineEnds (mem_lineEnds he) c hc).1
  unfold defines
  simp only [Option.any_eq_true, Bool.and_eq_true, List.contains_iff_mem, Text.after?_eq_some_iff]
  constructor
  · rintro ⟨x, hword, ⟨c, hc, hspacing⟩, y, hrest, he⟩
    obtain ⟨a, hline, ha⟩ := (dropWhile_isSpacing_eq_iff (by simp [isSpacing])).1 hword
    obtain ⟨b, rfl, hb⟩ := (dropWhile_isSpacing_eq_iff (hletter _)).1 hrest
    obtain ⟨d, e, rfl, hd, heq⟩ := exists_dropWhile_isSpacing y
    refine ⟨a, b, d, e, hline, ha, ?_, hb, hd, heq ▸ he⟩
    rintro rfl
    rw [hletter _ c hc] at hspacing
    cases hspacing
  · rintro ⟨a, b, d, e, hline, ha, hnil, hb, hd, he⟩
    refine ⟨_, (dropWhile_isSpacing_eq_iff (by simp [isSpacing])).2 ⟨a, hline, ha⟩, ?_, d ++ e, ?_, ?_⟩
    · obtain ⟨c, b, rfl⟩ := List.exists_cons_of_ne_nil hnil
      exact ⟨c, rfl, hb c (List.mem_cons_self ..)⟩
    · exact (dropWhile_isSpacing_eq_iff (hletter _)).2 ⟨b, rfl, hb⟩
    · rwa [(dropWhile_isSpacing_eq_iff (hhead he)).2 ⟨d, rfl, hd⟩]

/-- A line has a newline at its end only. -/
theorem eq_nil_of_line {u v : Text} (hone : wholeLines line = [line]) (hline : line = u ++ '\n' :: v) : v = [] := by
  have hfirst : FirstLine line [] := by
    unfold FirstLine
    rw [List.append_nil, hone]
    rfl
  rcases hfirst.cases with ⟨s, rfl, hs⟩ | ⟨hnone, -⟩
  · obtain ⟨y, -, hy⟩ := Text.exists_append_of_notMem hline.symm hs
    cases y with
    | nil => exact (List.cons_eq_cons.1 hy).2.symm
    | cons c y => simp at hy
  · rw [hline] at hnone
    simp at hnone

/-- On a line of its own what is held ends where the line ends. -/
theorem lineHolds_iff {P : Text → Prop} (hone : wholeLines line = [line]) :
    LineHolds P line ↔ ∃ u e, line = u ++ e ∧ P u ∧ e ∈ lineEnds := by
  constructor
  · rintro ⟨u, _, rfl, hu, r, v, rfl, hr, hv⟩
    refine ⟨u, r ++ v, rfl, hu, ?_⟩
    have hnewline : v = [] ∨ v = ['\n'] := by
      cases v with
      | nil => exact .inl rfl
      | cons c v =>
          obtain rfl : c = '\n' := by simpa using hv
          rw [eq_nil_of_line hone (List.append_assoc u r _).symm]
          exact .inr rfl
    have hends : ∀ r ∈ [['\r'], []], ∀ v ∈ [[], ['\n']], r ++ v ∈ lineEnds := by decide
    exact hends r (by simpa using hr) v (by simpa using hnewline)
  · rintro ⟨u, e, rfl, hu, he⟩
    have hends : ∀ e ∈ lineEnds, ∃ r ∈ [['\r'], []], ∃ v ∈ [[], ['\n']], e = r ++ v := by decide
    obtain ⟨r, hr, v, hv, rfl⟩ := hends e he
    refine ⟨u, r ++ v, rfl, hu, r, v, rfl, by simpa using hr, ?_⟩
    have hnewline : ∀ v ∈ [[], ['\n']], v.head?.all (· = '\n') = true := by decide
    exact hnewline v hv

theorem lineHolds_isClose_iff (hone : wholeLines line = [line]) : LineHolds IsClose line ↔ closes line = true := by
  rw [lineHolds_iff hone, closes_iff]
  constructor
  · rintro ⟨_, e, rfl, ⟨a, b, rfl, ha, hb⟩, he⟩
    exact ⟨a, b, e, by simp, ha, hb, he⟩
  · rintro ⟨a, b, e, rfl, ha, hb, he⟩
    exact ⟨a ++ ("end".toList ++ b), e, by simp, ⟨a, b, rfl, ha, hb⟩, he⟩

/-- A line that has its newline holds a definition of the action as the walk reads it. -/
theorem lineHolds_isHead_iff (hname : Name.IsNormal name) (hne : name ≠ []) (hone : wholeLines line = [line]) :
    LineHolds (IsHead name) line ∧ EndsLine line ↔ defines name line = true := by
  rw [lineHolds_iff hone, defines_iff hname hne]
  constructor
  · rintro ⟨⟨u, e, rfl, hu, he⟩, hends⟩
    have hnewline : e ∈ newlines := by
      refine mem_newlines_of_endsLine (hu.newline_notMem (hname.notMem (c := '\n') (by decide))) he hends ?_
      rintro hnil
      rw [hnil] at hone
      cases hone
    obtain ⟨a, b, d, rfl, ha, hnil, hb, hd⟩ := hu
    exact ⟨a, b, d, e, by simp, ha, hnil, hb, hd, hnewline⟩
  · rintro ⟨a, b, d, e, rfl, ha, hnil, hb, hd, he⟩
    refine ⟨⟨a ++ ("def".toList ++ (b ++ (name ++ d))), e, by simp, ⟨a, b, d, rfl, ha, hnil, hb, hd⟩, mem_lineEnds he⟩, ?_⟩
    obtain ⟨r, rfl⟩ := endsLine_of_mem_newlines he
    exact .inr ⟨a ++ ("def".toList ++ (b ++ (name ++ (d ++ r)))), by simp⟩

/-- A line defines one action at most. -/
theorem eq_of_defines (hname : Name.IsNormal name) (hother : Name.IsNormal other) (h : defines name line = true)
    (h' : defines other line = true) : other = name := by
  unfold defines at h h'
  simp only [Option.any_eq_true, Bool.and_eq_true, List.contains_iff_mem, Text.after?_eq_some_iff] at h h'
  obtain ⟨x, hword, -, y, hx, hy⟩ := h
  obtain ⟨x', hword', -, y', hx', hy'⟩ := h'
  obtain rfl : x = x' := List.append_cancel_left (hword.symm.trans hword')
  have hafter : ∀ {y : Text}, y.dropWhile isSpacing ∈ newlines → ∀ c ∈ y.head?, Name.isNameChar c = false := by
    intro y hy c hc
    obtain ⟨d, e, rfl, hd, heq⟩ := exists_dropWhile_isSpacing y
    rw [heq] at hy
    cases d with
    | nil => exact (head_of_mem_lineEnds (mem_lineEnds hy) c hc).2
    | cons f d =>
        obtain rfl : f = c := by simpa using hc
        rw [Bool.eq_false_iff]
        intro hletter
        have hspacing := hd f (List.mem_cons_self ..)
        rw [not_isSpacing_of_isNameChar hletter] at hspacing
        cases hspacing
  exact (Text.append_inj_of_span (hx'.symm.trans hx) hother.isNameChar hname.isNameChar (hafter hy') (hafter hy)).1

-- ============================================================================ along the walk

/-- The lines that close an action go through the first line that does, and over the blank line
behind it if there is one. -/
theorem of_closingLength {lines : List Text} {k : Nat} (h : closingLength lines = some k) :
    ∃ body close blank back, lines = body ++ close :: (blank ++ back) ∧ k = (body ++ close :: blank).length
      ∧ (∀ l ∈ body, closes l = false) ∧ closes close = true
      ∧ ((∃ l, blank = [l] ∧ isBlankLine l = true) ∨ blank = [] ∧ back.head?.any isBlankLine = false) := by
  induction lines generalizing k with
  | nil => cases h
  | cons line lines ih =>
      rw [closingLength] at h
      split at h
      next hclose =>
        obtain rfl := Option.some.inj h
        cases hblank : lines.head?.any isBlankLine with
        | false => exact ⟨[], line, [], lines, rfl, rfl, by simp, hclose, .inr ⟨rfl, hblank⟩⟩
        | true =>
            cases lines with
            | nil => cases hblank
            | cons l lines => exact ⟨[], line, [l], lines, rfl, rfl, by simp, hclose, .inl ⟨l, rfl, hblank⟩⟩
      next hopen =>
        obtain ⟨j, hj, rfl⟩ := Option.map_eq_some_iff.1 h
        obtain ⟨body, close, blank, back, rfl, rfl, hbody, hclose, hblank⟩ := ih hj
        refine ⟨line :: body, close, blank, back, rfl, by simp, fun l hl => ?_, hclose, hblank⟩
        rcases List.mem_cons.1 hl with rfl | hl
        · exact Bool.eq_false_iff.2 hopen
        · exact hbody l hl

theorem closingLength_eq_none_iff {lines : List Text} : closingLength lines = none ↔ ∀ l ∈ lines, closes l = false := by
  induction lines with
  | nil => simp [closingLength]
  | cons line lines ih =>
      rw [closingLength]
      cases hclose : closes line with
      | true => simp [hclose]
      | false => simp [hclose, ih]

theorem parts_drop (name : Text) (k : Nat) (lines : List Text) : parts name k lines = parts name 0 (lines.drop k) := by
  induction lines generalizing k with
  | nil => rw [List.drop_nil, parts, parts]
  | cons line lines ih =>
      cases k with
      | zero => rfl
      | succ k => exact ih k

/-- The walk at a line that is kept, and at one that is dropped with lines behind it. -/
theorem parts_cases (name line : Text) (lines : List Text) :
    (¬ (defines name line = true ∧ ∃ l ∈ lines, closes l = true)
        ∧ parts name 0 (line :: lines) = .keep line :: parts name 0 lines)
      ∨ defines name line = true ∧ ∃ k, closingLength lines = some k
        ∧ parts name 0 (line :: lines) = .drop (line :: lines.take k) :: parts name 0 (lines.drop k) := by
  rw [parts]
  split
  next k hk =>
    split at hk
    next hdefines => exact .inr ⟨hdefines, k, hk, by rw [parts_drop name k]⟩
    next => cases hk
  next hnone =>
    refine .inl ⟨?_, rfl⟩
    rintro ⟨hdefines, l, hl, hclose⟩
    rw [if_pos hdefines, closingLength_eq_none_iff] at hnone
    rw [hnone l hl] at hclose
    cases hclose

/-- The walk leaves out no line. -/
theorem flatMap_lines_parts (name : Text) (lines : List Text) : (parts name 0 lines).flatMap Part.lines = lines := by
  induction hlen : lines.length using Nat.strongRecOn generalizing lines with
  | ind n ih =>
      cases lines with
      | nil => rfl
      | cons line lines =>
          rw [List.length_cons] at hlen
          rcases parts_cases name line lines with ⟨-, hparts⟩ | ⟨-, k, -, hparts⟩
          · rw [hparts, List.flatMap_cons, ih _ (by omega) lines rfl]
            rfl
          · rw [hparts, List.flatMap_cons, ih _ (by rw [List.length_drop]; omega) (lines.drop k) rfl]
            show line :: lines.take k ++ lines.drop k = _
            rw [List.cons_append, List.take_append_drop]

/-- Each line is kept or dropped with the action it stands in. -/
theorem sublist_kept (name : Text) (lines : List Text) : ((parts name 0 lines).flatMap Part.kept).Sublist lines := by
  have hall : ∀ ps : List Part, (ps.flatMap Part.kept).Sublist (ps.flatMap Part.lines) := by
    intro ps
    induction ps with
    | nil => exact .refl _
    | cons p ps ih =>
        rw [List.flatMap_cons, List.flatMap_cons]
        cases p with
        | keep line => exact .append (.refl _) ih
        | drop lines => exact .append (List.nil_sublist _) ih
  have hsub := hall (parts name 0 lines)
  rwa [flatMap_lines_parts] at hsub

/-- Something is dropped if a line defines the action and one behind it closes an action. -/
theorem any_isDrop_iff {lines : List Text} : (parts name 0 lines).any Part.isDrop = true ↔
    ∃ front line back, lines = front ++ line :: back ∧ defines name line = true ∧ ∃ l ∈ back, closes l = true := by
  induction lines with
  | nil => simp [parts]
  | cons line lines ih =>
      rcases parts_cases name line lines with ⟨hnot, hparts⟩ | ⟨hdefines, k, hk, hparts⟩
      · rw [hparts, List.any_cons, show (Part.keep line).isDrop = false from rfl, Bool.false_or, ih]
        constructor
        · rintro ⟨front, l, back, rfl, hl⟩
          exact ⟨line :: front, l, back, rfl, hl⟩
        · rintro ⟨front, l, back, hlines, hl⟩
          cases front with
          | nil =>
              obtain ⟨rfl, rfl⟩ := List.cons_eq_cons.1 hlines
              exact absurd hl hnot
          | cons first front => exact ⟨front, l, back, (List.cons_eq_cons.1 hlines).2, hl⟩
      · obtain ⟨body, close, blank, back, rfl, -, -, hclose, -⟩ := of_closingLength hk
        rw [hparts]
        exact iff_of_true rfl ⟨[], line, _, rfl, hdefines, close, by simp, hclose⟩

/-- What the walk drops starts with a line that defines the action. -/
theorem defines_of_mem_parts {lines ls : List Text} (h : .drop ls ∈ parts name 0 lines) :
    ∃ line span, ls = line :: span ∧ defines name line = true := by
  induction hlen : lines.length using Nat.strongRecOn generalizing lines with
  | ind n ih =>
      cases lines with
      | nil => cases h
      | cons line lines =>
          rw [List.length_cons] at hlen
          rcases parts_cases name line lines with ⟨-, hparts⟩ | ⟨hdefines, k, -, hparts⟩
          · rw [hparts] at h
            have hbehind := (List.mem_cons.1 h).resolve_left (by simp)
            exact ih _ (by omega) hbehind rfl
          · rw [hparts] at h
            rcases List.mem_cons.1 h with heq | hbehind
            · exact ⟨line, lines.take k, by simpa using heq, hdefines⟩
            · exact ih _ (by rw [List.length_drop]; omega) hbehind rfl

/-- Lines that are looked for are all kept if none of them is dropped. -/
theorem filter_kept {P : Text → Bool} {ps : List Part} (h : ∀ ls, .drop ls ∈ ps → ∀ l ∈ ls, P l = false) :
    (ps.flatMap Part.kept).filter P = (ps.flatMap Part.lines).filter P := by
  induction ps with
  | nil => rfl
  | cons p ps ih =>
      rw [List.flatMap_cons, List.flatMap_cons, List.filter_append, List.filter_append,
        ih fun ls hls => h ls (List.mem_cons_of_mem _ hls)]
      cases p with
      | keep line => rfl
      | drop ls =>
          have hnone : ls.filter P = [] :=
            List.filter_eq_nil_iff.2 fun l hl => by simp [h ls (List.mem_cons_self ..) l hl]
          rw [show (Part.drop ls).lines = ls from rfl, hnone]
          rfl

end SiteScaffold.Patch.ControllerAction

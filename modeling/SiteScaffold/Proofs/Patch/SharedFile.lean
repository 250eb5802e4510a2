/-
A controller and a file of routes that are one file. Actions go in front of its last `end`
line and routes go behind the line that opens the block of routes, wherever that is, so the
text takes pages as two files do (`exists_together`). Neither disturbs the other:

- a route defines no action and is no `end` line (`fresh_written`, `startsAtEnd_written`);
- an action declares no route and opens no block (`fresh_emptyBlocks`, `opens_emptyBlocks`).
-/
import SiteScaffold.Proofs.Patch.Pages

namespace SiteScaffold.Patch.Pages

open Pattern
open Text (EndsLine NoRun)
open ControllerAction (definition emptyBlock StartsAtEnd)
open Route (Declaration pageDeclaration pageLine opener written line)

variable {a b back controller front name page routes s t u v x y z : Text} {names : List Text}
  {declarations : List Declaration} {d : Declaration} {before before' : Option Char} {rest : Text}

-- ==================================================================== routes put in

theorem clear_definition_line (hd : d.Normal) :
    (definition name).Clear before (line d.text) rest := by
  obtain ⟨c, s, heq, hc⟩ := Route.text_eq d
  refine clear_line (s := "  ".toList ++ d.text) ControllerAction.onNewLine_of_startsAt ?_ ?_
  · have hmem := hd.newline_notMem
    simpa using hmem
  · rw [heq]
    have hletter : isSpacing c = false ∧ c ≠ 'd' := by
      rcases hc with rfl | rfl
      · decide
      · decide
    exact ControllerAction.not_startsAt_definition (x := "  ".toList) (c := c) (by decide) hletter.1
      hletter.2

/-- Routes define no action. -/
theorem fresh_written (hfront : EndsLine front) (hnormal : ∀ d ∈ declarations, d.Normal)
    (h : ControllerAction.Undefined (front ++ back) name) :
    ControllerAction.Undefined (front ++ (written declarations ++ back)) name where
  normal := h.normal
  absent := by
    have hline := ControllerAction.lineBased_definition (h.normal.notMem (c := '\n') (by decide))
    exact occursIn_eq_false_iff.2 (Route.clear_withDeclarations hline hfront h.absent
      fun d hd _ _ => clear_definition_line (hnormal d hd))

/-- Routes make no run of newlines. -/
theorem noRun_written (hfront : EndsLine front) (hne : front ≠ [])
    (hnormal : ∀ d ∈ declarations, d.Normal) (h : NoRun (front ++ back)) :
    NoRun (front ++ (written declarations ++ back)) := by
  have hline : ∀ d ∈ declarations, NoRun ('\n' :: ("  ".toList ++ d.text))
      ∧ '\n' ∉ ('\n' :: ("  ".toList ++ d.text)).getLast? := by
    intro d hd
    have hmem := (hnormal d hd).newline_notMem
    have hcount := List.count_eq_zero.2 hmem
    refine ⟨Text.noRun_of_count (by simp [hcount]), ?_⟩
    intro hlast
    have hword : '\n' ∈ "  ".toList ++ d.text := List.mem_of_mem_getLast? hlast
    simp at hword
    exact hmem hword
  obtain ⟨r, rfl⟩ := hfront.resolve_left hne
  have hrest : NoRun ('\n' :: back) := by
    rw [List.append_assoc] at h
    exact h.right
  -- each line stands between newlines, and has none of its own
  have hlines : NoRun ('\n' :: (written declarations ++ back)) := by
    clear h
    induction declarations with
    | nil => exact hrest
    | cons d declarations ih =>
        have htail := ih (fun e he => hnormal e (List.mem_cons_of_mem _ he))
          fun e he => hline e (List.mem_cons_of_mem _ he)
        obtain ⟨hd, hlast⟩ := hline d (List.mem_cons_self ..)
        have htext := hd.append_of_last htail hlast
        simpa [written, line] using htext
  cases declarations with
  | nil => exact h
  | cons d declarations =>
      have htail : NoRun (written (d :: declarations) ++ back) := hlines.right (s := ['\n'])
      refine h.left.append htail ?_
      simp [written, line]

theorem mem_wholeLines_written (hnormal : ∀ d ∈ declarations, d.Normal)
    (h : t ∈ Text.wholeLines (written declarations)) : ∃ d ∈ declarations, t = line d.text := by
  induction declarations with
  | nil => cases h
  | cons d declarations ih =>
      have hd := hnormal d (List.mem_cons_self ..)
      have hnewline : '\n' ∉ "  ".toList ++ d.text := by
        have hmem := hd.newline_notMem
        simpa using hmem
      have hone : Text.wholeLines (line d.text) = [line d.text] := Text.wholeLines_line hnewline
      rw [written, List.flatMap_cons, Text.wholeLines_append (Route.endsLine_line d.text), hone] at h
      rcases List.mem_cons.1 h with rfl | htail
      · exact ⟨d, List.mem_cons_self .., rfl⟩
      · obtain ⟨e, he, rfl⟩ := ih (fun e he => hnormal e (List.mem_cons_of_mem _ he)) htail
        exact ⟨e, List.mem_cons_of_mem _ he, rfl⟩

/-- A route is no `end` line. -/
theorem startsAtEnd_written (hy : EndsLine y) (hne : y ≠ []) (hnormal : ∀ d ∈ declarations, d.Normal)
    (h : StartsAtEnd (y ++ z)) : StartsAtEnd (y ++ (written declarations ++ z)) := by
  obtain ⟨line', lines, hlines, hend, hafter⟩ := h
  rw [Text.wholeLines_append hy] at hlines
  obtain ⟨first, more, hfirst⟩ := List.exists_cons_of_ne_nil (Text.wholeLines_ne_nil hne)
  rw [hfirst] at hlines
  obtain ⟨rfl, rfl⟩ := List.cons_eq_cons.1 hlines
  refine ⟨first, more ++ (Text.wholeLines (written declarations) ++ Text.wholeLines z), ?_, hend, ?_⟩
  · rw [Text.wholeLines_append hy, Text.wholeLines_append (Route.endsLine_written declarations), hfirst]
    rfl
  · intro l hl
    rcases List.mem_append.1 hl with hl | hl
    · exact hafter l (List.mem_append_left _ hl)
    · rcases List.mem_append.1 hl with hl | hl
      · obtain ⟨d, -, rfl⟩ := mem_wholeLines_written hnormal hl
        have htrim : Text.trim (line d.text) = d.text := Route.trim_line d (t := ['\n']) (by decide)
        obtain ⟨c, s, heq, hc⟩ := Route.text_eq d
        rw [htrim, heq]
        rcases hc with rfl | rfl
        · intro heq
          cases heq
        · intro heq
          cases heq
      · exact hafter l (List.mem_append_right _ hl)

-- ================================================================== actions put in

/-- An action declares no route. -/
theorem clear_pageLine_emptyBlock (hname : Name.IsNormal name) :
    (pageLine page).Clear before (emptyBlock name) rest := by
  have hstarts : ∀ before s, (pageLine page).StartsAt before s → OnNewLine before :=
    fun _ _ h => (Route.startsAt_pageLine.1 h).1
  have hkeyed : ∀ s, Keyed "get".toList ('/' :: page) s → ∀ d ∈ s.head?, isSpacing d = false := by
    rintro _ ⟨g, o, c, r, rfl, -⟩
    simp [isSpacing]
  have hletter : ∀ {before} {a s : Text} {c : Char}, (∀ d ∈ a, isSpacing d) → isSpacing c = false →
      c ≠ 'g' → ¬ (pageLine page).StartsAt before (a ++ c :: s) := by
    intro before a s c ha hc hne hstart
    obtain ⟨g, o, e, r, heq, -⟩ := (Route.startsAt_pageLine.1 hstart).2.of_append hkeyed ha hc
    exact hne (List.cons_eq_cons.1 heq).1
  rw [ControllerAction.emptyBlock_eq]
  refine clear_append.2 ⟨clear_line hstarts ?_ ?_, clear_append.2
    ⟨clear_line hstarts (by decide) ?_, clear_line hstarts (by simp) ?_⟩⟩
  · have hmem : '\n' ∉ name := hname.notMem (by decide)
    simpa using hmem
  · exact hletter (a := "  ".toList) (c := 'd') (by decide) (by decide) (by decide)
  · exact hletter (a := "  ".toList) (c := 'e') (by decide) (by decide) (by decide)
  · exact hletter (a := []) (c := '\n') (by simp) (by decide) (by decide)

theorem fresh_emptyBlocks (hfront : EndsLine front) (hback : Unquoted back)
    (hnames : ∀ name ∈ names, Name.IsNormal name) (h : Route.Fresh (front ++ back) page) :
    Route.Fresh (front ++ (names.flatMap emptyBlock ++ back)) page where
  normal := h.normal
  absent := by
    have hnext : Unquoted (names.flatMap emptyBlock ++ back) :=
      unquoted_flatMap (fun name _ => ControllerAction.unquoted_emptyBlock name) hback
    refine occursIn_eq_false_iff.2 ((Route.lineBased_pageLine h.normal).clear_insert hfront
      (ControllerAction.endsLine_emptyBlocks names) hnext (occursIn_eq_false_iff.1 h.absent) ?_)
    exact clear_flatMap (P := fun _ => True) (by simp) trivial
      fun name hname _ _ _ => clear_pageLine_emptyBlock (hnames name hname)

/-- No line of an action is a declaration: that has quotation marks. -/
theorem undeclared_emptyBlocks (hfront : EndsLine front) (hnames : ∀ name ∈ names, Name.IsNormal name)
    (h : ∀ l ∈ Text.lines (front ++ back), Text.trim l ≠ pageDeclaration page page) :
    ∀ l ∈ Text.lines (front ++ (names.flatMap emptyBlock ++ back)),
      Text.trim l ≠ pageDeclaration page page := by
  rw [Text.lines_append hfront] at h
  rw [Text.lines_append hfront, Text.lines_append (ControllerAction.endsLine_emptyBlocks names)]
  intro l hl htrim
  rcases List.mem_append.1 hl with hl | hl
  · exact h l (List.mem_append_left _ hl) htrim
  · rcases List.mem_append.1 hl with hl | hl
    · obtain ⟨a, b, heq, -, -⟩ := Text.exists_trim l
      have hquote : '"' ∈ l := by
        rw [heq, htrim, Route.pageDeclaration_eq]
        simp
      obtain ⟨name, hname, hmem⟩ := List.mem_flatMap.1 (Text.mem_of_mem_lines hl hquote)
      have hnone : '"' ∉ name := (hnames name hname).notMem (by decide)
      rw [ControllerAction.emptyBlock_text] at hmem
      simp [hnone] at hmem
    · exact h l (List.mem_append_right _ hl) htrim

-- ============================================================== the line of the block

theorem startsAt_opener (h : opener.StartsAt before t) : opener.StartsAt before' t := by
  obtain ⟨u, s, rfl, hmatches⟩ := h
  exact (Route.prefers_opener hmatches).startsAt

/-- Behind a newline in the line that opens the block there is nothing, or white space and
the word that it ends in. -/
theorem opener_behind_newline (h : opener.Matches before (v ++ '\n' :: s) rest) :
    s = [] ∨ ∃ g r, s = g ++ ("do".toList ++ r) ∧ ∀ c ∈ g, Text.isBlank c := by
  obtain ⟨g, b, n, heq, ⟨-, hg⟩, hb, hn⟩ := Route.matches_opener h
  simp only [List.append_assoc] at heq
  obtain ⟨y, rfl, hy⟩ := Text.exists_append_of_notMem heq (by decide)
  rcases List.append_eq_append_iff.1 hy with ⟨w, rfl, hw⟩ | ⟨w, rfl, hw⟩
  · have hmem : '\n' ∉ "do".toList ++ b := by
      have hspacing := newline_notMem_spacing hb
      simpa using hspacing
    rw [← List.append_assoc] at hw
    obtain ⟨r, -, hr⟩ := Text.exists_append_of_notMem hw.symm hmem
    left
    rcases matches_newline.1 hn with rfl | rfl
    · match r, hr with
      | [], hr => cases hr
      | [_], hr => exact (List.cons_eq_cons.1 (List.cons_eq_cons.1 hr).2).2.symm
      | _ :: _ :: r, hr => simp at hr
    · match r, hr with
      | [], hr => exact (List.cons_eq_cons.1 hr).2.symm
      | _ :: r, hr => simp at hr
  · cases w with
    | nil => cases hw
    | cons c w =>
        obtain ⟨rfl, rfl⟩ := List.cons_eq_cons.1 hw
        exact .inr ⟨w, b ++ n, rfl, fun c hc => hg c (by simp [hc])⟩

/-- What starts with white space and another word is not that. -/
theorem ne_do_of_word {g r a w : Text} (h : g ++ ("do".toList ++ r) = a ++ w)
    (hg : ∀ c ∈ g, Text.isBlank c) (ha : ∀ c ∈ a, Text.isBlank c)
    (hw : ∀ c ∈ w.head?, Text.isBlank c = false) : "do".toList ++ r = w :=
  (Text.append_inj_of_span h hg ha (by simp [Text.isBlank]) hw).2

/-- The line that opens the block does not start in front of the last `end` line and go on
behind it. -/
theorem opener_within {hit : Hit} (hx : EndsLine x) (hy : y ≠ []) (hlast : StartsAtEnd (y ++ z))
    (hfirst : opener.first? (x ++ (y ++ z)) = some (s, hit, z)) :
    ∃ w, s = x ++ w ∧ y = w ++ hit.text := by
  obtain ⟨htext, -, hmatches⟩ := of_first?_eq_some hfirst
  rw [← List.append_assoc, ← List.append_assoc] at htext
  have hcut := List.append_cancel_right htext
  rcases List.append_eq_append_iff.1 hcut with ⟨w, rfl, rfl⟩ | ⟨w, rfl, hw⟩
  · exact ⟨w, rfl, rfl⟩
  · by_cases hnil : w = []
    · rw [hnil] at hw hx ⊢
      exact ⟨[], by simp, by simpa using hw.symm⟩
    · obtain ⟨v, rfl⟩ := hx.of_append hnil
      rw [hw, List.append_assoc, List.singleton_append] at hmatches
      rcases opener_behind_newline hmatches with hempty | ⟨g, r, rfl, hg⟩
      · exact absurd hempty hy
      · obtain ⟨a, r', heq, ha⟩ := hlast.exists_trim
        rw [List.append_assoc, List.append_assoc] at heq
        have hword := ne_do_of_word heq hg ha (by simp [Text.isBlank])
        cases hword

theorem clear_opener_of_notMem (h : 'R' ∉ t) : opener.Clear before t rest := by
  rw [clear_iff]
  rintro u v rfl hne ⟨m, r, heq, hmatches⟩
  obtain ⟨c, v, rfl⟩ := List.exists_cons_of_ne_nil hne
  obtain ⟨m, rfl, -⟩ := Route.letter_of_opener hmatches
  obtain ⟨rfl, -⟩ := List.cons_eq_cons.1 heq
  simp at h

/-- Where no block is opened in whole lines, none is with an action behind them. -/
theorem clear_opener_front (hx : EndsLine x) (h : opener.Clear none x rest)
    {rest' : Text} (hnext : ∃ r, rest' = "  def ".toList ++ r) : opener.Clear none x rest' := by
  obtain ⟨r, rfl⟩ := hnext
  rw [clear_iff] at h ⊢
  rintro u v rfl hne ⟨m, s, heq, hmatches⟩
  rcases List.append_eq_append_iff.1 heq with ⟨w, rfl, hw⟩ | ⟨w, rfl, -⟩
  · -- a match that goes on in the action has white space and `do` there
    obtain ⟨v, rfl⟩ := hx.of_append hne
    rw [List.append_assoc, List.singleton_append] at hmatches
    rcases opener_behind_newline hmatches with rfl | ⟨g, r', rfl, hg⟩
    · exact h u _ rfl hne (Route.prefers_opener hmatches).startsAt
    · rw [List.append_assoc, List.append_assoc] at hw
      have hsplit : g ++ ("do".toList ++ (r' ++ s)) = "  ".toList ++ ("def ".toList ++ r) := hw.symm
      have hword := ne_do_of_word hsplit hg (by decide) (by simp [Text.isBlank])
      cases hword
  · refine h u _ rfl hne ?_
    rw [List.append_assoc]
    exact (Route.prefers_opener hmatches).startsAt

/-- Actions behind whole lines open no block where none was opened. -/
theorem clear_opener_emptyBlocks (hx : EndsLine x) (hnames : ∀ name ∈ names, Name.IsNormal name)
    (h : opener.Clear none (x ++ y) rest) :
    opener.Clear none (x ++ (names.flatMap emptyBlock ++ y)) rest := by
  obtain ⟨hbefore, hbetween⟩ := clear_append.1 h
  refine clear_append.2 ⟨?_, clear_append.2 ⟨?_, ?_⟩⟩
  · cases names with
    | nil => simpa using hbefore
    | cons name names =>
        refine clear_opener_front hx hbefore ⟨name ++ "\n  end\n\n".toList
          ++ names.flatMap emptyBlock ++ y ++ rest, ?_⟩
        simp [ControllerAction.emptyBlock_text]
  · refine clear_opener_of_notMem fun hmem => ?_
    obtain ⟨name, hname, hletter⟩ := List.mem_flatMap.1 hmem
    have hnone : 'R' ∉ name := (hnames name hname).notMem (by decide)
    rw [ControllerAction.emptyBlock_text] at hletter
    simp [hnone] at hletter
  · rw [clear_iff] at hbetween ⊢
    intro u v heq hv hstart
    exact hbetween u v heq hv (startsAt_opener hstart)

/-- Actions in front of the block leave the line that opens it the first one. -/
theorem opens_emptyBlocks {hit : Hit} (hx : EndsLine x) (hy : y ≠ [])
    (hnames : ∀ name ∈ names, Name.IsNormal name) (hlast : StartsAtEnd (y ++ z))
    (hfirst : opener.first? (x ++ (y ++ z)) = some (s, hit, z)) :
    opener.EndsFirst (x ++ (names.flatMap emptyBlock ++ y)) := by
  obtain ⟨w, rfl, rfl⟩ := opener_within hx hy hlast hfirst
  obtain ⟨-, hclear, hmatches⟩ := of_first?_eq_some hfirst
  have hne : hit.text ≠ [] := by
    obtain ⟨r, heq, -⟩ := Route.letter_of_opener hmatches
    rw [heq]
    simp
  obtain ⟨found, hhere, htext, -⟩ := first?_of_prefers (clear_opener_emptyBlocks hx hnames hclear)
    (Route.prefers_opener hmatches) hne
  have hends := Route.endsFirst_opener hhere
  rw [htext] at hends
  simpa using hends

-- ======================================================================== one file

variable {Fits : Text → Prop}

/-- The parts of a text whose last `end` line is behind the line that opens the block. -/
def endBehind (x y z : Text) : Parts where
  front := fun routes => x ++ (written (declared routes) ++ y)
  back := fun _ => z
  opening := fun _ => x
  closing := fun actions => y ++ (actions.flatMap emptyBlock ++ z)

/-- The parts of a text whose last `end` line is in front of the block. -/
def endInFront (x y z : Text) : Parts where
  front := fun _ => x
  back := fun routes => y ++ (written (declared routes) ++ z)
  opening := fun actions => x ++ (actions.flatMap emptyBlock ++ y)
  closing := fun _ => z

theorem normal_of_unused {pages : List Text} (hunused : ∀ p, Fits p → Unused t t p)
    (hpages : ∀ p ∈ pages, Fits p) : ∀ p ∈ pages, Name.IsNormal p :=
  fun p hp => (hunused p (hpages p hp)).action.normal

theorem sound_endBehind (hopens : opener.EndsFirst x) (hx : EndsLine x) (hne : x ≠ [])
    (hy : EndsLine y) (hlast : StartsAtEnd z) (hrun : NoRun (x ++ (y ++ z)))
    (hunused : ∀ p, Fits p → Unused (x ++ (y ++ z)) (x ++ (y ++ z)) p) :
    (endBehind x y z).Sound Fits where
  frame := by
    intro routes hroutes
    have hnormal := normal_declared (normal_of_unused hunused hroutes)
    refine ⟨hx.append ((Route.endsLine_written _).append hy), hlast, ?_⟩
    have hwritten := noRun_written hx hne hnormal hrun
    simpa only [endBehind, List.append_assoc] using hwritten
  opens := fun _ => hopens
  whole := fun _ => hx
  unused := by
    intro actions routes page hactions hroutes hpage
    have hnormal := normal_declared (normal_of_unused hunused hroutes)
    have hnames := normal_of_unused hunused hactions
    obtain ⟨haction, hroute, hundeclared⟩ := hunused page hpage
    have hfront := hx.append hy
    rw [← List.append_assoc] at hroute hundeclared
    have haction' := fresh_written hx hnormal haction
    have hroute' := fresh_emptyBlocks hfront hlast.unquoted hnames hroute
    have hundeclared' := undeclared_emptyBlocks hfront hnames hundeclared
    constructor
    · simpa only [endBehind, List.append_assoc] using haction'
    · simpa only [endBehind, List.append_assoc] using hroute'
    · simpa only [endBehind, List.append_assoc] using hundeclared'

theorem sound_endInFront {hit : Hit} (hx : EndsLine x) (hy : EndsLine y) (hne : y ≠ [])
    (hlast : StartsAtEnd (y ++ z)) (hfirst : opener.first? (x ++ (y ++ z)) = some (s, hit, z))
    (hrun : NoRun (x ++ (y ++ z)))
    (hunused : ∀ p, Fits p → Unused (x ++ (y ++ z)) (x ++ (y ++ z)) p) :
    (endInFront x y z).Sound Fits where
  frame := by
    intro routes hroutes
    have hnormal := normal_declared (normal_of_unused hunused hroutes)
    refine ⟨hx, startsAtEnd_written hy hne hnormal hlast, ?_⟩
    rw [← List.append_assoc] at hrun
    have hwritten := noRun_written (hx.append hy) (by simp [hne]) hnormal hrun
    simpa only [endInFront, List.append_assoc] using hwritten
  opens := fun hactions => opens_emptyBlocks hx hne (normal_of_unused hunused hactions) hlast hfirst
  whole := fun _ => hx.append ((ControllerAction.endsLine_emptyBlocks _).append hy)
  unused := by
    intro actions routes page hactions hroutes hpage
    have hnormal := normal_declared (normal_of_unused hunused hroutes)
    have hnames := normal_of_unused hunused hactions
    obtain ⟨haction, hroute, hundeclared⟩ := hunused page hpage
    rw [← List.append_assoc] at haction
    have haction' := fresh_written (hx.append hy) hnormal haction
    have hroute' := fresh_emptyBlocks hx hlast.unquoted hnames hroute
    have hundeclared' := undeclared_emptyBlocks hx hnames hundeclared
    constructor
    · simpa only [endInFront, List.append_assoc] using haction'
    · simpa only [endInFront, List.append_assoc] using hroute'
    · simpa only [endInFront, List.append_assoc] using hundeclared'

/-- One file takes the actions and the routes of pages that it does not know yet. -/
theorem exists_together (hend : ∃ l ∈ Text.wholeLines t, Text.trim l = "end".toList)
    (hrun : NoRun t) (hopener : opener.occursIn t) (hunused : ∀ p, Fits p → Unused t t p) :
    ∃ texts : Texts, texts.Takes Fits
      ∧ (∀ actions routes, texts.controller actions routes = texts.routes actions routes)
      ∧ texts.controller [] [] = t := by
  obtain ⟨front, back, hcut, hwhole, hlast⟩ := ControllerAction.exists_cut hend
  obtain ⟨⟨start, hit, closing⟩, hfirst⟩ := Option.isSome_iff_exists.1 hopener
  obtain ⟨htext, -, hmatches⟩ := of_first?_eq_some hfirst
  have hopens := Route.endsFirst_opener hfirst
  have hopening := Route.endsLine_opener hfirst
  have hne : start ++ hit.text ≠ [] := by
    obtain ⟨r, heq, -⟩ := Route.letter_of_opener hmatches
    rw [heq]
    simp
  rw [← List.append_assoc] at htext
  have hends : ∀ {a b : Text}, EndsLine (a ++ b) → EndsLine b := by
    intro a b h
    by_cases hb : b = []
    · exact .inl hb
    · exact .inr (h.of_append hb)
  have hbehind : ∀ y, front = start ++ hit.text ++ y → closing = y ++ back →
      ∃ texts : Texts, texts.Takes Fits
        ∧ (∀ actions routes, texts.controller actions routes = texts.routes actions routes)
        ∧ texts.controller [] [] = t := by
    rintro y rfl rfl
    rw [htext] at hrun hunused
    have hsound := sound_endBehind hopens hopening hne (hends hwhole) hlast hrun hunused
    refine ⟨_, hsound.takes, fun actions routes => ?_, ?_⟩
    · simp [Parts.texts, endBehind, ControllerAction.withActions, Route.withDeclarations]
    · rw [hcut]
      simp [Parts.texts, endBehind, ControllerAction.withActions, declared, written]
  rw [hcut] at htext
  rcases List.append_eq_append_iff.1 htext with ⟨y, hy, rfl⟩ | ⟨y, hy, rfl⟩
  · by_cases hnil : y = []
    · subst hnil
      exact hbehind [] (by simpa using hy.symm) rfl
    · rw [hy] at hopening
      rw [hcut] at hfirst hrun hunused
      have hsound := sound_endInFront hwhole (hends hopening) hnil hlast hfirst hrun hunused
      refine ⟨_, hsound.takes, fun actions routes => ?_, ?_⟩
      · simp [Parts.texts, endInFront, ControllerAction.withActions, Route.withDeclarations]
      · rw [hcut]
        simp [Parts.texts, endInFront, ControllerAction.withActions, declared, written]
  · exact hbehind y hy rfl

/-- The texts of a controller and of a file of routes, which may be one file, take pages that
they do not know yet. -/
theorem exists_texts {same : Prop} [Decidable same] (hsame : same → controller = routes)
    (hend : ∃ l ∈ Text.wholeLines controller, Text.trim l = "end".toList) (hrun : NoRun controller)
    (hopener : opener.occursIn routes) (hunused : ∀ p, Fits p → Unused controller routes p) :
    ∃ texts : Texts, texts.Takes Fits
      ∧ (same → ∀ actions routes, texts.controller actions routes = texts.routes actions routes)
      ∧ (¬ same → ∀ actions routes routes',
        texts.controller actions routes = texts.controller actions routes')
      ∧ (¬ same → ∀ actions actions' routes, texts.routes actions routes = texts.routes actions' routes)
      ∧ texts.controller [] [] = controller ∧ texts.routes [] [] = routes := by
  by_cases hone : same
  · obtain rfl := hsame hone
    obtain ⟨texts, htakes, hshared, htext⟩ := exists_together hend hrun hopener hunused
    exact ⟨texts, htakes, fun _ => hshared, absurd hone, absurd hone, htext,
      (hshared [] []).symm.trans htext⟩
  · obtain ⟨texts, htakes, halone, halone', htext, htext'⟩ := exists_apart hend hrun hopener hunused
    exact ⟨texts, htakes, fun heq => absurd heq hone, fun _ => halone, fun _ => halone', htext, htext'⟩

-- ==================================================================== read backwards

/-- A controller that takes an action has an `end` line. -/
theorem endLine_of_insert {patched : Option Text} (habsent : (definition page).occursIn controller = false)
    (h : ControllerAction.insert page controller = .ok patched) :
    ∃ l ∈ Text.wholeLines controller, Text.trim l = "end".toList := by
  by_contra hnone
  have hends : ∀ l ∈ Text.wholeLines controller, Text.trim l ≠ "end".toList :=
    fun l hl htrim => hnone ⟨l, hl, htrim⟩
  rw [ControllerAction.insert, habsent, ControllerAction.splitAtLastEnd_eq_none hends] at h
  cases h

/-- A file that takes a route has a block of them. -/
theorem opener_of_insertPage {patched : Option Text}
    (habsent : ∀ l ∈ Text.lines routes, Text.trim l ≠ pageDeclaration page page)
    (h : Route.insertPage page page routes = .ok patched) : opener.occursIn routes := by
  have hany : (Text.lines routes).any (Text.trim · = pageDeclaration page page) = false := by
    simpa using habsent
  unfold Route.insertPage at h
  dsimp only at h
  rw [hany] at h
  cases hfirst : opener.first? routes with
  | some found =>
      unfold Pattern.occursIn
      rw [hfirst]
      rfl
  | none =>
      have hline : Route.insertLine (pageDeclaration page page) routes
          = .error (.noAnchor "'Rails.application.routes.draw do'") := by
        rw [Route.insertLine, hfirst]
      rw [hline] at h
      cases h

/-- Texts that take an action and then a route of a page take them as `Texts.Takes` says, be
they of one file or of two. -/
theorem exists_texts_of_inserted {same : Prop} [Decidable same] {patched : Text}
    {patched' : Option Text} (hsame : same → controller = routes) (hrun : NoRun controller)
    (hunused : Unused controller routes page)
    (haction : ControllerAction.insert page controller = .ok (some patched))
    (hroute : Route.insertPage page page (if same then patched else routes) = .ok patched') :
    ∃ texts : Texts, texts.Takes (· = page)
      ∧ (same → ∀ actions routes, texts.controller actions routes = texts.routes actions routes)
      ∧ (¬ same → ∀ actions routes routes',
        texts.controller actions routes = texts.controller actions routes')
      ∧ (¬ same → ∀ actions actions' routes, texts.routes actions routes = texts.routes actions' routes)
      ∧ texts.controller [] [] = controller ∧ texts.routes [] [] = routes := by
  have hend := endLine_of_insert hunused.action.absent haction
  refine exists_texts hsame hend hrun ?_ fun p hp => by rwa [hp]
  by_cases hone : same
  · obtain rfl := hsame hone
    rw [if_pos hone] at hroute
    obtain ⟨front, back, rfl, hwhole, hlast⟩ := ControllerAction.exists_cut hend
    have hnames : ∀ name ∈ [page], Name.IsNormal name := by
      intro name hname
      rw [List.mem_singleton.1 hname]
      exact hunused.action.normal
    have hinsert : ControllerAction.insert page (ControllerAction.withActions front [] back) = _ :=
      ControllerAction.insert_withActions ⟨hwhole, hlast, hrun⟩ hunused.action (by simp)
    have hnil : ControllerAction.withActions front [] back = front ++ back := rfl
    rw [hnil, haction, if_neg (by simp)] at hinsert
    cases hinsert
    -- the action brings no block with it
    have hopener := opener_of_insertPage (undeclared_emptyBlocks hwhole hnames hunused.undeclared) hroute
    by_contra hnone
    rw [Bool.not_eq_true, occursIn_eq_false_iff] at hnone
    have hclear := clear_opener_emptyBlocks hwhole hnames hnone
    rw [← occursIn_eq_false_iff, hopener] at hclear
    cases hclear
  · rw [if_neg hone] at hroute
    exact opener_of_insertPage hunused.undeclared hroute

end SiteScaffold.Patch.Pages

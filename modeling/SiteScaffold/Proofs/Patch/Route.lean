/-
Routes in a text that stays what it is around them. The text is cut in two after the
line that opens the block of routes, and the declarations put in by the program stand at
the cut, a line each. There a search for one of them finds exactly that one:

- the first line that opens the block ends at the cut whatever stands behind it
  (`endsFirst_opener`);
- a route is told by the line it stands on (`lineBased_pageLine`, `lineBased_rootLine`),
  so none is to be found in the text around that had none before;
- the line of another page, or of the root, is not a line of this page
  (`not_startsAt_pageLine`): what stands between its first two quotation marks is another
  name;
- the match at the line itself is the line (`prefers_pageLine`, `prefers_rootLine`).

So an insertion adds one line or puts one in the place of another
(`insertPage_withDeclarations`, `insertRoot_withDeclarations`), and a removal takes out
the lines of one page (`removePage_withDeclarations`).
-/
import Mathlib.Data.List.TakeDrop
import SiteScaffold.Patch.Fragment
import SiteScaffold.Proofs.Pattern.Lines

namespace SiteScaffold.Patch.Route

open Pattern
open Text (EndsLine)

variable {page action : Text} {before : Option Char} {front back s t u rest : Text}

-- ====================================================== reading the patterns

/-- Whether the text starts with the word of a root line. -/
def IsRoot (t : Text) : Prop := ∃ s, t = "root".toList ++ s ∧ s.head?.any Text.isWord = false

theorem startsAt_rootLine :
    rootLine.StartsAt before t ↔ OnNewLine before ∧ Indented IsRoot t := by
  have hletter : ∀ a before, (lastAfter before (a ++ "root".toList)).any Text.isWord = true := by
    intro a before
    have hword : a ++ "root".toList = (a ++ "roo".toList) ++ ['t'] := by simp
    rw [hword, lastAfter_concat]
    rfl
  unfold rootLine
  rw [startsAt_restOfLine, startsAt_append]
  simp only [matches_append, matches_lineStart, matches_spacing, matches_literal]
  constructor
  · rintro ⟨_, s, rfl, ⟨_, _, rfl, ⟨_, a, rfl, ⟨rfl, hbefore⟩, ha⟩, rfl⟩, _, r, rfl, hboundary⟩
    obtain ⟨rfl, hword⟩ := matches_boundary.1 hboundary
    rw [hletter] at hword
    refine ⟨hbefore, a, "root".toList ++ r, by simp, ha, r, rfl, ?_⟩
    simpa using hword
  · rintro ⟨hbefore, a, _, rfl, ha, s, rfl, hs⟩
    refine ⟨a ++ "root".toList, s, by simp, ⟨a, _, rfl, ⟨[], a, rfl, ⟨rfl, hbefore⟩, ha⟩, rfl⟩,
      [], s, rfl, matches_boundary.2 ⟨rfl, ?_⟩⟩
    rw [hletter, hs]
    rfl

theorem startsAt_pageLine :
    (pageLine page).StartsAt before t ↔
      OnNewLine before ∧ Indented (Keyed "get".toList ('/' :: page)) t := by
  unfold pageLine
  rw [startsAt_restOfLine]
  constructor
  · rintro ⟨_, s, rfl, h⟩
    simp only [matches_append, matches_lineStart, matches_spacing, matches_literal, matches_gap,
      matches_quote] at h
    obtain ⟨_, _, rfl, ⟨_, _, rfl, ⟨_, _, rfl, ⟨_, _, rfl, ⟨_, g, rfl, ⟨_, _, rfl, ⟨_, a, rfl,
      ⟨rfl, hbefore⟩, ha⟩, rfl⟩, hne, hg⟩, o, ho, rfl⟩, rfl⟩, rfl⟩, c, hc, rfl⟩ := h
    refine ⟨hbefore, a, _, ?_, ha, g, o, c, s, rfl, hne, hg, ho, hc⟩
    simp
  · rintro ⟨hbefore, a, _, rfl, ha, g, o, c, s, rfl, hne, hg, ho, hc⟩
    refine ⟨[] ++ a ++ "get".toList ++ g ++ [o] ++ ['/'] ++ page ++ [c], s, by simp, ?_⟩
    refine matches_append.2 ⟨_, _, rfl, ?_, matches_quote.2 ⟨c, hc, rfl⟩⟩
    refine matches_append.2 ⟨_, _, rfl, ?_, matches_literal.2 rfl⟩
    refine matches_append.2 ⟨_, _, rfl, ?_, matches_literal.2 rfl⟩
    refine matches_append.2 ⟨_, _, rfl, ?_, matches_quote.2 ⟨o, ho, rfl⟩⟩
    refine matches_append.2 ⟨_, _, rfl, ?_, matches_gap.2 ⟨hne, hg⟩⟩
    refine matches_append.2 ⟨_, _, rfl, ?_, matches_literal.2 rfl⟩
    exact matches_append.2 ⟨_, _, rfl, matches_lineStart.2 ⟨rfl, hbefore⟩, matches_spacing.2 ha⟩

/-- A root line is told by its line. -/
theorem lineBased_rootLine : rootLine.LineBased := by
  refine lineBased_of_indented (fun _ _ => startsAt_rootLine) fun s rest rest' _ h => ?_
  obtain ⟨r, heq, hr⟩ := h
  obtain ⟨y, rfl, rfl⟩ := Text.exists_append_of_notMem heq (by decide)
  refine ⟨y ++ '\n' :: rest', by simp, ?_⟩
  cases y with
  | nil => rfl
  | cons c y => exact hr

/-- The line of a page is told by its line. -/
theorem lineBased_pageLine (hpage : Name.IsNormal page) : (pageLine page).LineBased := by
  have hname : '\n' ∉ '/' :: page := by
    have hmem := hpage.notMem (c := '\n') (by decide)
    simpa using hmem
  refine lineBased_of_indented (fun _ _ => startsAt_pageLine) fun s rest rest' hnext h => ?_
  have hsplit : ∀ r, s ++ '\n' :: r = (s ++ ['\n']) ++ r := by simp
  rw [hsplit] at h ⊢
  exact (h.within (by decide) hname Text.endsLine_newline (by simp) hnext).append

-- ============================================================== declarations

/-- What a line in the block of routes declares. -/
inductive Declaration where
  | page (name action : Text)
  | root (action : Text)
  deriving Repr, DecidableEq

namespace Declaration

/-- The declaration as it is written. -/
def text : Declaration → Text
  | .page name action => pageDeclaration name action
  | .root action => rootDeclaration action

/-- Whether the names in it are normal. -/
def Normal : Declaration → Prop
  | .page name action => Name.IsNormal name ∧ Name.IsNormal action
  | .root action => Name.IsNormal action

/-- Whether it declares the root route. -/
def isRoot : Declaration → Bool
  | .page _ _ => false
  | .root _ => true

/-- Whether it declares a route of the page. -/
def isPage (name : Text) : Declaration → Bool
  | .page other _ => other = name
  | .root _ => false

end Declaration

open Declaration (isRoot isPage)

variable {d d' : Declaration}

theorem pageDeclaration_eq (page action : Text) :
    pageDeclaration page action = "get".toList ++ (" ".toList ++ '"' :: (('/' :: page)
      ++ '"' :: (", to: \"home#".toList ++ (action ++ ['"'])))) := by
  unfold pageDeclaration
  simp only [String.reduceToList, List.append_assoc, List.cons_append, List.nil_append]

theorem rootDeclaration_eq (action : Text) :
    rootDeclaration action = "root".toList ++ (" \"home#".toList ++ (action ++ ['"'])) := by
  unfold rootDeclaration
  simp only [String.reduceToList, List.cons_append, List.nil_append]

/-- A declaration starts with a letter and ends in a quotation mark. -/
theorem text_eq (d : Declaration) :
    ∃ c s, d.text = (c :: s) ++ ['"'] ∧ (c = 'g' ∨ c = 'r') := by
  cases d with
  | page name action =>
      refine ⟨'g', "et \"/".toList ++ name ++ "\", to: \"home#".toList ++ action, ?_, .inl rfl⟩
      show pageDeclaration name action = _
      unfold pageDeclaration
      simp only [String.reduceToList, List.cons_append, List.nil_append]
  | root action =>
      refine ⟨'r', "oot \"home#".toList ++ action, ?_, .inr rfl⟩
      show rootDeclaration action = _
      unfold rootDeclaration
      simp only [String.reduceToList, List.cons_append, List.nil_append]

theorem Declaration.Normal.newline_notMem (h : d.Normal) : '\n' ∉ d.text := by
  have hnewline : ∀ {name : Text}, Name.IsNormal name → '\n' ∉ name :=
    fun h => h.notMem (by decide)
  cases d with
  | page name action =>
      show '\n' ∉ pageDeclaration name action
      rw [pageDeclaration_eq]
      simp [hnewline h.1, hnewline h.2]
  | root action =>
      have haction : '\n' ∉ action := hnewline h
      show '\n' ∉ rootDeclaration action
      rw [rootDeclaration_eq]
      simp [haction]

theorem endsLine_line (t : Text) : EndsLine (line t) := Text.endsLine_newline

theorem unquoted_line (d : Declaration) : Unquoted (line d.text) := by
  obtain ⟨c, s, heq, hc⟩ := text_eq d
  refine ⟨"  ".toList, c, s ++ ['"'] ++ ['\n'], ?_, by decide, ?_, ?_⟩
  · rw [line, heq]
    rfl
  · rcases hc with rfl | rfl
    · rfl
    · rfl
  · rcases hc with rfl | rfl
    · rfl
    · rfl

/-- A declaration is what is left of its line without the white space. -/
theorem trim_line (d : Declaration) (ht : ∀ c ∈ t, Text.isBlank c) :
    Text.trim ("  ".toList ++ d.text ++ t) = d.text := by
  obtain ⟨c, s, heq, hc⟩ := text_eq d
  have hlast : d.text.getLast? = some '"' := by
    rw [heq]
    exact List.getLast?_concat
  refine Text.trim_append (by decide) ht (by rw [heq]; simp) ?_ (by rw [hlast]; simp [Text.isBlank])
  rw [heq]
  rcases hc with rfl | rfl
  · simp [Text.isBlank]
  · simp [Text.isBlank]

theorem lines_line (h : d.Normal) : Text.lines (line d.text) = ["  ".toList ++ d.text] := by
  obtain ⟨c, s, heq, -⟩ := text_eq d
  refine Text.lines_line (s := "  ".toList ++ d.text) ?_ ?_
  · have hmem := h.newline_notMem
    simpa using hmem
  · have hlast : d.text.getLast? = some '"' := by
      rw [heq]
      exact List.getLast?_concat
    rw [List.getLast?_append, hlast]
    simp

-- ================================================ declarations that look alike

/-- What stands between the first two quotation marks tells pages apart. -/
theorem eq_of_keyed_pageDeclaration {other : Text} (hpage : Name.IsNormal page)
    (hother : Name.IsNormal other)
    (h : Keyed "get".toList ('/' :: page) (pageDeclaration other action ++ rest)) :
    page = other := by
  obtain ⟨g, o, c, s, heq, -, hg, ho, hc⟩ := h
  have htext : pageDeclaration other action ++ rest = "get".toList ++ (" ".toList
      ++ '"' :: (('/' :: other) ++ '"' :: (", to: \"home#".toList ++ (action ++ ['"']) ++ rest))) := by
    rw [pageDeclaration_eq]
    simp
  rw [htext] at heq
  have hblank : Text.isBlank o = false := Text.not_isBlank_of_isQuote ho
  obtain ⟨-, hquote⟩ := Text.append_inj_of_span (List.append_cancel_left heq) (by decide) hg
    (by simp [Text.isBlank]) (by simpa using hblank)
  obtain ⟨-, hname⟩ := List.cons_eq_cons.1 hquote
  have hquotes : ∀ {name : Text}, Name.IsNormal name → ∀ d ∈ '/' :: name, !isQuote d := by
    intro name h d hd
    rcases List.mem_cons.1 hd with rfl | hd
    · rfl
    · simp [Name.not_isQuote_of_isNameChar (h.isNameChar d hd)]
  obtain ⟨hnames, -⟩ := Text.append_inj_of_span hname (hquotes hother) (hquotes hpage)
    (by simp [isQuote]) (by simp [hc])
  exact (List.cons_eq_cons.1 hnames).2.symm

/-- Two declarations that are written alike are the same. -/
theorem text_inj (h : d.Normal) (h' : d'.Normal) (heq : d.text = d'.text) : d = d' := by
  have hletters : ∀ {page action action' : Text}, pageDeclaration page action ≠ rootDeclaration action' := by
    intro page action action' heq
    rw [pageDeclaration_eq, rootDeclaration_eq] at heq
    cases heq
  cases d with
  | page name action =>
      cases d' with
      | page name' action' =>
          have hdeclaration : pageDeclaration name action = pageDeclaration name' action' := heq
          have hkeyed : Keyed "get".toList ('/' :: name) (pageDeclaration name' action' ++ []) := by
            rw [← hdeclaration, pageDeclaration_eq, List.append_nil]
            exact ⟨" ".toList, '"', '"', _, rfl, by decide, by decide, rfl, rfl⟩
          obtain rfl := eq_of_keyed_pageDeclaration h.1 h'.1 hkeyed
          rw [pageDeclaration_eq, pageDeclaration_eq] at hdeclaration
          simpa using hdeclaration
      | root action' => exact absurd heq hletters
  | root action =>
      cases d' with
      | page name' action' => exact absurd heq.symm hletters
      | root action' =>
          have hdeclaration : rootDeclaration action = rootDeclaration action' := heq
          rw [rootDeclaration_eq, rootDeclaration_eq] at hdeclaration
          simpa using hdeclaration

/-- A declaration of anything else than the page is no line of the page. -/
theorem clear_pageLine (hpage : Name.IsNormal page) (hd : d.Normal) (hother : d.isPage page = false) :
    (pageLine page).Clear before (line d.text) rest := by
  refine clear_line (s := "  ".toList ++ d.text) (fun _ _ h => (startsAt_pageLine.1 h).1) ?_ ?_
  · have hmem := hd.newline_notMem
    simpa using hmem
  · intro hstart
    obtain ⟨c, s, heq, hc⟩ := text_eq d
    have hindented := (startsAt_pageLine.1 hstart).2
    have hkeyed : Keyed "get".toList ('/' :: page) (d.text ++ '\n' :: rest) := by
      rw [List.append_assoc, heq] at hindented
      rw [heq]
      refine hindented.of_append ?_ (by decide) ?_
      · rintro _ ⟨g, o, c, r, rfl, -⟩
        simp [isSpacing]
      · rcases hc with rfl | rfl
        · rfl
        · rfl
    cases d with
    | page name action =>
        obtain rfl := eq_of_keyed_pageDeclaration hpage hd.1 hkeyed
        simp [isPage] at hother
    | root action =>
        obtain ⟨g, o, c, r, heq, -⟩ := hkeyed
        have hroot : (Declaration.root action).text = rootDeclaration action := rfl
        rw [hroot, rootDeclaration_eq] at heq
        cases heq

/-- The declaration of a page is no root line. -/
theorem clear_rootLine (hd : d.Normal) (hother : d.isRoot = false) :
    rootLine.Clear before (line d.text) rest := by
  cases d with
  | root action => cases hother
  | page name action =>
      refine clear_line (s := "  ".toList ++ pageDeclaration name action)
        (fun _ _ h => (startsAt_rootLine.1 h).1) ?_ ?_
      · have hmem := hd.newline_notMem
        have htext : (Declaration.page name action).text = pageDeclaration name action := rfl
        rw [htext] at hmem
        simpa using hmem
      · intro hstart
        have hindented := (startsAt_rootLine.1 hstart).2
        rw [List.append_assoc, pageDeclaration_eq] at hindented
        obtain ⟨s, heq, -⟩ := hindented.of_append (c := 'g')
          (by rintro _ ⟨s, rfl, -⟩; simp [isSpacing]) (by decide) (by decide)
        cases heq

-- =========================================================== the lines themselves

/-- The match at the line of a page is the line. -/
theorem prefers_pageLine (haction : Name.IsNormal action) (hbefore : OnNewLine before) :
    (pageLine page).Prefers before (line (pageDeclaration page action)) rest := by
  have htext : line (pageDeclaration page action) = [] ++ "  ".toList ++ "get".toList ++ " ".toList
      ++ ['"'] ++ "/".toList ++ page ++ ['"'] ++ (", to: \"home#".toList ++ (action ++ ['"'])) ++ ['\n'] := by
    unfold line
    rw [pageDeclaration_eq]
    simp
  have hline : ∀ c ∈ ", to: \"home#".toList ++ (action ++ ['"']), inLine c := by
    intro c hc
    have hfixed : ∀ c ∈ ", to: \"home#".toList ++ ['"'], inLine c := by decide
    simp only [List.mem_append] at hc hfixed
    rcases hc with hc | hc | hc
    · exact hfixed c (.inl hc)
    · have hne := Name.ne_of_isNameChar (haction.isNameChar c hc) (d := '\n') (by decide)
      simp [inLine, hne]
    · exact hfixed c (.inr hc)
  rw [htext]
  refine prefers_append (prefers_append (prefers_append (prefers_append (prefers_append
    (prefers_append (prefers_append (prefers_append (prefers_append (prefers_lineStart hbefore) ?_)
      (prefers_literal _)) ?_) ?_) (prefers_literal _)) (prefers_literal _)) ?_) ?_) prefers_lineBreak
  · exact prefers_many (by decide) (by simp [isSpacing])
  · exact prefers_oneOrMore (by decide) (by decide) (by simp [Text.isBlank])
  · exact prefers_one (by decide)
  · exact prefers_one (by decide)
  · exact prefers_many hline (by simp [inLine])

/-- The match at a root line is the line. -/
theorem prefers_rootLine (haction : Name.IsNormal action) (hbefore : OnNewLine before) :
    rootLine.Prefers before (line (rootDeclaration action)) rest := by
  have htext : line (rootDeclaration action) = [] ++ "  ".toList ++ "root".toList ++ []
      ++ (" \"home#".toList ++ (action ++ ['"'])) ++ ['\n'] := by
    unfold line
    rw [rootDeclaration_eq]
    simp
  have hline : ∀ c ∈ " \"home#".toList ++ (action ++ ['"']), inLine c := by
    intro c hc
    have hfixed : ∀ c ∈ " \"home#".toList ++ ['"'], inLine c := by decide
    simp only [List.mem_append] at hc hfixed
    rcases hc with hc | hc | hc
    · exact hfixed c (.inl hc)
    · have hne := Name.ne_of_isNameChar (haction.isNameChar c hc) (d := '\n') (by decide)
      simp [inLine, hne]
    · exact hfixed c (.inr hc)
  rw [htext]
  refine prefers_append (prefers_append (prefers_append (prefers_append (prefers_append
    (prefers_lineStart hbefore) ?_) (prefers_literal _)) (prefers_boundary ?_)) ?_) prefers_lineBreak
  · exact prefers_many (by decide) (by simp [isSpacing])
  · have hletter : ∀ before, (lastAfter before ([] ++ "  ".toList ++ "root".toList)).any Text.isWord := by
      intro before
      rfl
    rw [hletter]
    rfl
  · exact prefers_many hline (by simp [inLine])

-- ======================================================= the line of the block

/-- The parts of a line that opens the block of routes. -/
theorem matches_opener (h : opener.Matches before t rest) :
    ∃ g b n, t = "Rails.application.routes.draw".toList ++ g ++ "do".toList ++ b ++ n
      ∧ (g ≠ [] ∧ ∀ c ∈ g, Text.isBlank c) ∧ (∀ c ∈ b, isSpacing c) ∧ newline.Matches none n [] := by
  simp only [opener, matches_append, matches_literal, matches_gap, matches_spacing,
    matches_newline] at h
  obtain ⟨_, n, rfl, ⟨_, b, rfl, ⟨_, _, rfl, ⟨_, g, rfl, rfl, hg⟩, rfl⟩, hb⟩, hn⟩ := h
  exact ⟨g, b, n, rfl, hg, hb, matches_newline.2 hn⟩

theorem prefers_opener {before' : Option Char} {rest' : Text} (h : opener.Matches before t rest) :
    opener.Prefers before' t rest' := by
  obtain ⟨g, b, n, rfl, ⟨hne, hg⟩, hb, hn⟩ := matches_opener h
  have hstop : ∀ c ∈ (n ++ rest').head?, isSpacing c = false := by
    rcases matches_newline.1 hn with rfl | rfl
    · simp [isSpacing]
    · simp [isSpacing]
  unfold opener
  refine prefers_append ?_ (prefers_newline_of_matches hn)
  refine prefers_append ?_ (prefers_many hb hstop)
  refine prefers_append ?_ (prefers_literal _)
  refine prefers_append (prefers_literal _) ?_
  exact prefers_oneOrMore hne hg (by simp [Text.isBlank])

/-- The first letter of a line that opens the block is not met in it again. -/
theorem letter_of_opener (h : opener.Matches before t rest) : ∃ r, t = 'R' :: r ∧ 'R' ∉ r := by
  obtain ⟨g, b, n, rfl, ⟨-, hg⟩, hb, hn⟩ := matches_opener h
  have hgap : 'R' ∉ g := by
    intro hmem
    have hc := hg _ hmem
    cases hc
  have hspacing : 'R' ∉ b := by
    intro hmem
    have hc := hb _ hmem
    cases hc
  have hnewline : 'R' ∉ n := by
    rcases matches_newline.1 hn with rfl | rfl
    · decide
    · decide
  have hwords : 'R' ∉ "ails.application.routes.draw".toList ∧ 'R' ∉ "do".toList := by decide
  have hopen : "Rails.application.routes.draw".toList
      = 'R' :: "ails.application.routes.draw".toList := rfl
  rw [hopen]
  refine ⟨"ails.application.routes.draw".toList ++ g ++ "do".toList ++ b ++ n, by simp, ?_⟩
  simp only [List.mem_append, not_or]
  exact ⟨⟨⟨⟨hwords.1, hgap⟩, hwords.2⟩, hspacing⟩, hnewline⟩

/-- A line that opens the block has no other one inside. -/
theorem opener_once {before' : Option Char} {x y rest' : Text} (h : opener.Matches before u rest)
    (h' : opener.Matches before' (x ++ (u ++ y)) rest') : x = [] := by
  obtain ⟨r, rfl, -⟩ := letter_of_opener h
  obtain ⟨r', heq, hr⟩ := letter_of_opener h'
  cases x with
  | nil => rfl
  | cons c x =>
      obtain ⟨-, rfl⟩ : c = 'R' ∧ x ++ ('R' :: r ++ y) = r' := List.cons_eq_cons.1 heq
      simp at hr

/-- The text up to the end of the first line that opens the block ends there, whatever
stands behind it. -/
theorem endsFirst_opener {hit : Hit} (h : opener.first? t = some (front, hit, back)) :
    opener.EndsFirst (front ++ hit.text) := by
  refine endsFirst_of_first? h (fun _ u _ hmatches => ?_) (fun _ _ _ _ => prefers_opener)
    (fun _ _ _ _ _ _ _ => opener_once)
  obtain ⟨r, rfl, -⟩ := letter_of_opener hmatches
  simp

/-- It is made of whole lines, up to the one that opens the block. -/
theorem endsLine_opener {hit : Hit} (h : opener.first? t = some (front, hit, back)) :
    EndsLine (front ++ hit.text) := by
  obtain ⟨-, -, hmatches⟩ := of_first?_eq_some h
  obtain ⟨g, b, n, htext, -, -, hn⟩ := matches_opener hmatches
  rw [htext, ← List.append_assoc]
  rcases matches_newline.1 hn with rfl | rfl
  · exact .inr ⟨_, (List.append_assoc _ ['\r'] ['\n']).symm⟩
  · exact Text.endsLine_newline

-- ========================================================= the declarations put in

/-- A text in which routes can be declared: `front` ends with the first line that opens
the block of routes, and nothing declares the root route. -/
structure Frame (front back : Text) : Prop where
  opens : opener.EndsFirst front
  whole : EndsLine front
  noRoot : rootLine.occursIn (front ++ back) = false

/-- Whether a content leaves a page its route: the name of the page is normal, and
nothing declares a route for it. -/
structure Fresh (content page : Text) : Prop where
  normal : Name.IsNormal page
  absent : (pageLine page).occursIn content = false

/-- Declarations as they are written, a line each. -/
def written (declarations : List Declaration) : Text :=
  declarations.flatMap fun d => line d.text

/-- A text with declarations behind the line that opens the block. -/
def withDeclarations (front : Text) (declarations : List Declaration) (back : Text) : Text :=
  front ++ (written declarations ++ back)

variable {declarations : List Declaration}

theorem endsLine_written (declarations : List Declaration) : EndsLine (written declarations) :=
  Text.endsLine_flatMap fun d _ => endsLine_line d.text

theorem unquoted_written (h : declarations ≠ []) : Unquoted (written declarations ++ back) := by
  obtain ⟨d, declarations, rfl⟩ := List.exists_cons_of_ne_nil h
  rw [written, List.flatMap_cons, List.append_assoc]
  exact (unquoted_line d).append

/-- Lines in which nothing starts make no match with the text around them. -/
theorem clear_withDeclarations {p : Pattern} (hp : p.LineBased) (hfront : EndsLine front)
    (habsent : p.occursIn (front ++ back) = false)
    (hclear : ∀ d ∈ declarations, ∀ before rest, p.Clear before (line d.text) rest) :
    p.Clear none (withDeclarations front declarations back) [] := by
  have haround := occursIn_eq_false_iff.1 habsent
  by_cases hnil : declarations = []
  · rw [hnil]
    exact haround
  · refine hp.clear_insert hfront (endsLine_written declarations) (unquoted_written hnil) haround ?_
    exact clear_flatMap (P := fun _ => True) (by simp) trivial
      fun d hd before rest _ => hclear d hd before rest

-- =============================================================== inserting a page

/-- The contents of the lines around declarations, and of their own. -/
theorem lines_withDeclarations (hfront : EndsLine front) (hnormal : ∀ d ∈ declarations, d.Normal) :
    Text.lines (withDeclarations front declarations back)
      = Text.lines front ++ (declarations.map (fun d => "  ".toList ++ d.text) ++ Text.lines back) := by
  rw [withDeclarations, Text.lines_append hfront]
  congr 1
  induction declarations with
  | nil => rfl
  | cons d declarations ih =>
      have htail := ih fun e he => hnormal e (List.mem_cons_of_mem _ he)
      rw [written, List.flatMap_cons, List.append_assoc, Text.lines_append (endsLine_line d.text),
        lines_line (hnormal d (List.mem_cons_self ..)), List.map_cons]
      exact congrArg _ htail

/-- A declaration that is on none of the lines around is on a line if it was put in. -/
theorem declared_withDeclarations (hfront : EndsLine front) (hd : d.Normal)
    (hnormal : ∀ e ∈ declarations, e.Normal)
    (habsent : ∀ l ∈ Text.lines (front ++ back), Text.trim l ≠ d.text) :
    (∃ l ∈ Text.lines (withDeclarations front declarations back), Text.trim l = d.text)
      ↔ d ∈ declarations := by
  have htrim : ∀ e : Declaration, Text.trim ("  ".toList ++ e.text) = e.text := by
    intro e
    have htrim := trim_line e (t := []) (by simp)
    rw [List.append_nil] at htrim
    exact htrim
  rw [lines_withDeclarations hfront hnormal]
  rw [Text.lines_append hfront] at habsent
  constructor
  · rintro ⟨l, hl, hline⟩
    simp only [List.mem_append, List.mem_map] at hl
    rcases hl with hl | ⟨e, he, rfl⟩ | hl
    · exact absurd hline (habsent l (List.mem_append_left _ hl))
    · rw [htrim] at hline
      rw [← text_inj (hnormal e he) hd hline]
      exact he
    · exact absurd hline (habsent l (List.mem_append_right _ hl))
  · intro hmem
    refine ⟨"  ".toList ++ d.text, ?_, htrim d⟩
    simp only [List.mem_append, List.mem_map]
    exact .inr (.inl ⟨d, hmem, rfl⟩)

/-- A declaration goes in front of the others. -/
theorem insertLine_withDeclarations (hopens : opener.EndsFirst front) (d : Declaration)
    (declarations : List Declaration) (back : Text) :
    insertLine d.text (withDeclarations front declarations back)
      = .ok (withDeclarations front (d :: declarations) back) := by
  obtain ⟨start, hit, hfound, rfl⟩ := hopens (written declarations ++ back)
  rw [insertLine, withDeclarations, hfound]
  simp [withDeclarations, written]

/-- The route of a page goes in front, unless it is there. -/
theorem insertPage_withDeclarations (hopens : opener.EndsFirst front) (hfront : EndsLine front)
    (hpage : Name.IsNormal page) (haction : Name.IsNormal action) (hnormal : ∀ d ∈ declarations, d.Normal)
    (habsent : ∀ l ∈ Text.lines (front ++ back), Text.trim l ≠ pageDeclaration page action) :
    insertPage page action (withDeclarations front declarations back)
      = .ok (if .page page action ∈ declarations then none
        else some (withDeclarations front (.page page action :: declarations) back)) := by
  have hdeclared := declared_withDeclarations (d := .page page action) hfront
    ⟨hpage, haction⟩ hnormal habsent
  have hinsert := insertLine_withDeclarations hopens (.page page action) declarations back
  simp only [Declaration.text] at hdeclared hinsert
  simp only [insertPage]
  by_cases hmem : .page page action ∈ declarations
  · obtain ⟨l, hl, hline⟩ := hdeclared.2 hmem
    rw [if_pos (List.any_eq_true.2 ⟨l, hl, decide_eq_true hline⟩), if_pos hmem]
  · rw [if_neg, if_neg hmem, hinsert]
    · rfl
    · intro hany
      obtain ⟨l, hl, hline⟩ := List.any_eq_true.1 hany
      exact hmem (hdeclared.1 ⟨l, hl, of_decide_eq_true hline⟩)

-- ================================================================ removing a page

/-- The line of a page is a match as a whole. -/
theorem prefers_of_isPage (hd : d.Normal) (hispage : d.isPage page) (hbefore : OnNewLine before) :
    (pageLine page).Prefers before (line d.text) rest := by
  cases d with
  | root action => cases hispage
  | page name action =>
      obtain rfl : name = page := by simpa [isPage] using hispage
      exact prefers_pageLine hd.2 hbefore

/-- Removal takes out the lines of the page, if there are any, and nothing else. -/
theorem removePage_withDeclarations (hfront : EndsLine front) (hpage : Fresh (front ++ back) page)
    (hnormal : ∀ d ∈ declarations, d.Normal) :
    removePage page (withDeclarations front declarations back)
      = if declarations.any (isPage page) then
          some (withDeclarations front (declarations.filter (!isPage page ·)) back)
        else none := by
  have hline := lineBased_pageLine hpage.normal
  by_cases hany : declarations.any (isPage page)
  · obtain ⟨d, hd, hispage⟩ := List.any_eq_true.1 hany
    have hhit : ∀ e ∈ declarations, isPage page e → ∀ before rest, OnNewLine before →
        (pageLine page).Prefers before (line e.text) rest := fun e he hispage before rest hbefore =>
      prefers_of_isPage (hnormal e he) hispage hbefore
    have hoccurs : (pageLine page).occursIn (withDeclarations front declarations back) = true :=
      occursIn_of_mem hfront (fun e _ => endsLine_line e.text) hd
        fun before rest hbefore hclear => clear_iff.1 hclear [] _ rfl (unquoted_line d).not_nil
          (hhit d hd hispage before rest hbefore).startsAt
    have hnil : declarations ≠ [] := List.ne_nil_of_mem hd
    obtain ⟨hclear, hclear'⟩ := hline.clear_around hfront (endsLine_written declarations)
      (unquoted_written hnil) (occursIn_eq_false_iff.1 hpage.absent)
    have hdelete := delete_flatMap (P := fun _ => True) (fun e => isPage page e) hfront
      (fun e _ => endsLine_line e.text) (by simp) trivial
      (fun e he hispage => ⟨(unquoted_line e).not_nil, hhit e he hispage⟩)
      (fun e he hother before rest _ => clear_pageLine hpage.normal (hnormal e he) (by simpa using hother))
      hclear hclear'
    rw [removePage, hoccurs, if_pos rfl, if_pos hany, withDeclarations, written, hdelete]
    simp [withDeclarations, written]
  · have hclear := clear_withDeclarations hline hfront hpage.absent fun d hd before rest =>
      clear_pageLine hpage.normal (hnormal d hd)
        (by simpa using fun hispage => hany (List.any_eq_true.2 ⟨d, hd, hispage⟩))
    rw [removePage, occursIn_eq_false_iff.2 hclear, if_neg Bool.false_ne_true, if_neg hany]

/-- There are as many lines of a page as were put in. -/
theorem length_hits_withDeclarations (hfront : EndsLine front) (hpage : Fresh (front ++ back) page)
    (hnormal : ∀ d ∈ declarations, d.Normal) :
    ((pageLine page).hits (withDeclarations front declarations back)).length
      = declarations.countP (isPage page) := by
  by_cases hnil : declarations = []
  · have hnone := filterMap_piecesFrom (occursIn_eq_false_iff.1 hpage.absent)
    rw [List.append_nil] at hnone
    rw [hnil, hits_eq, withDeclarations, show written [] ++ back = back from rfl, hnone]
    rfl
  · obtain ⟨hclear, hclear'⟩ := (lineBased_pageLine hpage.normal).clear_around hfront
      (endsLine_written declarations) (unquoted_written hnil) (occursIn_eq_false_iff.1 hpage.absent)
    rw [withDeclarations, written, length_hits_flatMap (fun d => isPage page d) hfront
      (fun d _ => endsLine_line d.text) ?_ ?_ hclear hclear']
    · simp
    · intro d hd hispage
      refine ⟨line d.text, [], by simp, (unquoted_line d).not_nil, fun before rest hbefore => ?_⟩
      exact ⟨prefers_of_isPage (hnormal d hd) hispage hbefore, clear_nil⟩
    · intro d hd hother before rest
      exact clear_pageLine hpage.normal (hnormal d hd) (by simpa using hother)

-- ============================================================== inserting the root

/-- Declarations with the root route leading to an action: in front if it led nowhere,
else in its place. -/
def withRoot (action : Text) (declarations : List Declaration) : Option (List Declaration) :=
  if declarations.any isRoot then
    if .root action ∈ declarations then none
    else some (declarations.map fun d => if d.isRoot then .root action else d)
  else some (.root action :: declarations)

/-- A root route that is there stands between declarations of other routes. -/
theorem exists_root (hany : declarations.any isRoot) (honce : declarations.countP isRoot ≤ 1) :
    ∃ live first second, declarations = first ++ .root live :: second
      ∧ ∀ d ∈ first ++ second, d.isRoot = false := by
  obtain ⟨d, hd, hroot⟩ := List.any_eq_true.1 hany
  obtain ⟨first, second, rfl⟩ := List.append_of_mem hd
  cases d with
  | page name action => cases hroot
  | root live =>
      refine ⟨live, first, second, rfl, ?_⟩
      have hcount : (first ++ second).countP isRoot = 0 := by
        simp only [List.countP_append, List.countP_cons, isRoot, if_true] at honce ⊢
        omega
      simpa using List.countP_eq_zero.1 hcount

theorem withRoot_of_exists {live : Text} {first second : List Declaration}
    (hothers : ∀ d ∈ first ++ second, d.isRoot = false) :
    withRoot action (first ++ .root live :: second)
      = if live = action then none else some (first ++ .root action :: second) := by
  have hany : (first ++ .root live :: second).any isRoot = true :=
    List.any_eq_true.2 ⟨.root live, by simp, rfl⟩
  have hmem : .root action ∈ first ++ .root live :: second ↔ live = action := by
    constructor
    · intro hmem
      simp only [List.mem_append, List.mem_cons, Declaration.root.injEq] at hmem hothers
      rcases hmem with hmem | rfl | hmem
      · cases hothers _ (.inl hmem)
      · rfl
      · cases hothers _ (.inr hmem)
    · rintro rfl
      simp
  have hkept : ∀ {xs : List Declaration}, (∀ d ∈ xs, d ∈ first ++ second) →
      xs.map (fun d => if d.isRoot then .root action else d) = xs := by
    intro xs hxs
    refine (List.map_congr_left fun d hd => ?_).trans (List.map_id xs)
    rw [hothers d (hxs d hd)]
    rfl
  rw [withRoot, if_pos hany]
  by_cases heq : live = action
  · rw [if_pos (hmem.2 heq), if_pos heq]
  · rw [if_neg (mt hmem.1 heq), if_neg heq, List.map_append, List.map_cons,
      hkept fun d hd => List.mem_append_left _ hd, hkept fun d hd => List.mem_append_right _ hd]
    rfl

theorem span_append {α : Type} {P : α → Bool} {x : α} {xs ys : List α} (hxs : ∀ y ∈ xs, P y)
    (hx : P x = false) : (xs ++ x :: ys).span P = (xs, x :: ys) := by
  rw [List.span_eq_takeWhile_dropWhile, List.takeWhile_append_of_pos hxs,
    List.dropWhile_append_of_pos hxs, List.takeWhile_cons_of_neg (by simp [hx]),
    List.dropWhile_cons_of_neg (by simp [hx]), List.append_nil]

/-- One line takes the place of a match, if it is the only one. -/
theorem replaceFirstHit_eq {a b new : Text} {hit : Hit} :
    replaceFirstHit new (a.map .plain ++ .hit hit :: b.map .plain) = a ++ new ++ b := by
  have hspan : (a.map Piece.plain ++ .hit hit :: b.map Piece.plain).span (·.hit?.isNone)
      = (a.map .plain, .hit hit :: b.map .plain) := by
    refine span_append (fun piece hpiece => ?_) rfl
    obtain ⟨c, -, rfl⟩ := List.mem_map.1 hpiece
    rfl
  have hplain : ∀ t : Text, (t.map Piece.plain).flatMap Piece.text = t := by
    intro t
    rw [List.flatMap_map]
    exact List.flatMap_singleton' t
  have hkept : ∀ t : Text, (t.map Piece.plain).flatMap (Piece.write fun _ => []) = t := by
    intro t
    rw [List.flatMap_map]
    exact List.flatMap_singleton' t
  simp only [replaceFirstHit, hspan, hplain, List.drop_succ_cons, List.drop_zero, hkept,
    List.isEmpty_cons, Bool.false_eq_true, if_false]

/-- The root line is the only match of the pattern of root lines. -/
theorem pieces_rootLine {declarations' : List Declaration} (hframe : Frame front back)
    (hnormal : ∀ d ∈ declarations ++ .root action :: declarations', d.Normal)
    (honce : ∀ d ∈ declarations ++ declarations', d.isRoot = false) :
    ∃ hit, rootLine.pieces (withDeclarations front (declarations ++ .root action :: declarations') back)
        = (front ++ written declarations).map .plain
          ++ .hit hit :: (written declarations' ++ back).map .plain
      ∧ hit.text = line (rootDeclaration action) := by
  have hother : ∀ d ∈ declarations ++ declarations', ∀ before rest,
      rootLine.Clear before (line d.text) rest := by
    intro d hd before rest
    refine clear_rootLine (hnormal d ?_) (honce d hd)
    rcases List.mem_append.1 hd with hd | hd
    · exact List.mem_append_left _ hd
    · exact List.mem_append_right _ (List.mem_cons_of_mem _ hd)
  have hlines : ∀ {xs : List Declaration}, (∀ d ∈ xs, d ∈ declarations ++ declarations') →
      ∀ before rest, rootLine.Clear before (written xs) rest := by
    intro xs hxs before rest
    exact clear_flatMap (P := fun _ => True) (by simp) trivial
      fun d hd before rest _ => hother d (hxs d hd) before rest
  obtain ⟨hclear, hclear'⟩ := lineBased_rootLine.clear_around hframe.whole
    (endsLine_written (declarations ++ .root action :: declarations')) (unquoted_written (by simp))
    (occursIn_eq_false_iff.1 hframe.noRoot)
  have hwritten : written (declarations ++ .root action :: declarations')
      = written declarations ++ (line (rootDeclaration action) ++ written declarations') := by
    rw [written, List.flatMap_append, List.flatMap_cons]
    rfl
  have hbefore : OnNewLine (lastAfter none (front ++ written declarations)) :=
    onNewLine_lastAfter (hframe.whole.append (endsLine_written declarations)) onNewLine_none
  rw [hwritten] at hclear hclear'
  have hpieces := pieces_of_hit (p := rootLine) (a := front ++ written declarations)
    (t := line (rootDeclaration action)) (b := written declarations' ++ back) ?_
    (prefers_rootLine (hnormal (.root action) (by simp)) hbefore) (unquoted_line (.root action)).not_nil ?_
  · have htext : withDeclarations front (declarations ++ .root action :: declarations') back
        = front ++ written declarations ++ (line (rootDeclaration action) ++ (written declarations' ++ back)) := by
      rw [withDeclarations, hwritten]
      simp
    rw [htext]
    exact hpieces
  · refine clear_append.2 ⟨?_, hlines (fun d hd => List.mem_append_left _ hd) _ _⟩
    simpa using hclear
  · refine clear_append.2 ⟨hlines (fun d hd => List.mem_append_right _ hd) _ _, ?_⟩
    rw [← lastAfter_append]
    simpa using hclear'

/-- The root route goes in front, or in the place of the root route that is there, or
nowhere if that is the same. -/
theorem insertRoot_withDeclarations (hframe : Frame front back) (haction : Name.IsNormal action)
    (hnormal : ∀ d ∈ declarations, d.Normal) (honce : declarations.countP isRoot ≤ 1) :
    insertRoot action (withDeclarations front declarations back)
      = .ok ((withRoot action declarations).map fun new => withDeclarations front new back) := by
  by_cases hany : declarations.any isRoot
  · obtain ⟨live, first, second, rfl, hothers⟩ := exists_root hany honce
    obtain ⟨hit, hpieces, htext⟩ := pieces_rootLine hframe hnormal hothers
    have hhits : rootLine.hits (withDeclarations front (first ++ .root live :: second) back) = [hit] := by
      have hplain : ∀ t : Text, (t.map Piece.plain).filterMap Piece.hit? = [] := by
        intro t
        rw [List.filterMap_map]
        exact List.filterMap_eq_nil_iff.2 fun _ _ => rfl
      rw [hits, hpieces, List.filterMap_append, List.filterMap_cons, hplain, hplain]
      rfl
    have htrim : Text.trim hit.text = rootDeclaration live := by
      rw [htext]
      exact trim_line (.root live) (t := "\n".toList) (by decide)
    have hsame : rootDeclaration live = rootDeclaration action ↔ live = action := by
      constructor
      · intro heq
        have hroots : Declaration.root live = .root action :=
          text_inj (hnormal _ (by simp)) haction heq
        simpa using hroots
      · exact congrArg rootDeclaration
    simp only [insertRoot, hhits, htrim, hsame]
    rw [withRoot_of_exists hothers]
    by_cases heq : live = action
    · rw [if_pos heq, if_pos heq]
      rfl
    · rw [if_neg heq, if_neg heq, hpieces, replaceFirstHit_eq]
      simp [withDeclarations, written, Declaration.text]
  · have hothers : ∀ d ∈ declarations, d.isRoot = false := by simpa using hany
    have hclear := clear_withDeclarations lineBased_rootLine hframe.whole hframe.noRoot
      fun d hd before rest => clear_rootLine (hnormal d hd) (hothers d hd)
    have hhits : rootLine.hits (withDeclarations front declarations back) = [] := by
      have hnone := filterMap_piecesFrom hclear
      rw [List.append_nil] at hnone
      rw [hits_eq, hnone]
      rfl
    have hinsert := insertLine_withDeclarations hframe.opens (.root action) declarations back
    simp only [Declaration.text] at hinsert
    simp only [insertRoot, hhits, hinsert]
    rw [withRoot, if_neg hany]
    rfl

end SiteScaffold.Patch.Route

/-
What patching leaves in a text, whatever the text is. A fragment that was put in is there
(`occursIn_insert`, `declared_insertPage`), and one that was taken out is gone
(`occursIn_block_remove`, `notMem_removePage`). It does not matter what the other fragments of
a page do to the text, if they share it:

- whether an action is there is told by single lines, and whether it can be taken out by pairs
  of them (`tellsLines_definition`, `tellsLines_block`), so more lines do not hide it and fewer
  do not bring it back;
- an action in front of the last `end` line leaves the line that opens the block of routes in
  one piece (`occursIn_opener_insert`).
-/
import SiteScaffold.Patch.Fragment
import SiteScaffold.Proofs.Patch.DirectiveEdits
import SiteScaffold.Proofs.Patch.SharedFile

namespace SiteScaffold.Patch

open Pattern
open Text (EndsLine FirstLine wholeLines)

variable {name page action layout view hostClass rest s t u v x y : Text} {before : Option Char}
  {patched : Option Text}

-- ================================================================= lines of actions

namespace ControllerAction

/-- Whether a line holds what `P` tells of, from its start to its end. -/
def LineHolds (P : Text → Prop) (t : Text) : Prop := ∃ u s, t = u ++ s ∧ P u ∧ AtLineEnd s

/-- What a line holds is told by that line alone. -/
theorem lineHolds_append {P : Text → Prop} {line : Text} (hP : ∀ u, P u → '\n' ∉ u) (h : FirstLine line rest) :
    LineHolds P (line ++ rest) ↔ LineHolds P line := by
  rcases h.cases with ⟨s, rfl, -⟩ | ⟨-, rfl⟩
  · -- behind the newline nothing matters
    have hwithin : ∀ rest rest', LineHolds P (s ++ '\n' :: rest) → LineHolds P (s ++ '\n' :: rest') := by
      intro rest rest' hholds
      obtain ⟨u, v, hcut, hu, hend⟩ := hholds
      obtain ⟨y, rfl, rfl⟩ := Text.exists_append_of_notMem hcut (hP u hu)
      exact ⟨u, y ++ '\n' :: rest', List.append_assoc .., hu, hend.within⟩
    rw [List.append_assoc, List.singleton_append]
    exact ⟨hwithin _ _, hwithin _ _⟩
  · rw [List.append_nil]

/-- An action is defined by single lines. -/
theorem tellsLines_definition (hname : '\n' ∉ name) :
    (definition name).TellsLines fun line _ => LineHolds (IsHead name) line where
  start := onNewLine_of_startsAt
  line := by
    intro before line rest hbefore hfirst
    rw [startsAt_definition, ← lineHolds_append (fun u hu => hu.newline_notMem hname) hfirst]
    exact and_iff_right hbefore
  behind := fun _ _ _ _ h => h

/-- What stands on a line that ends an action. -/
def IsClose (t : Text) : Prop :=
  ∃ a b, t = a ++ ("end".toList ++ b) ∧ (∀ c ∈ a, isSpacing c) ∧ ∀ c ∈ b, isSpacing c

theorem IsClose.newline_notMem (h : IsClose t) : '\n' ∉ t := by
  obtain ⟨a, b, rfl, ha, hb⟩ := h
  have hfront := newline_notMem_spacing ha
  have hback := newline_notMem_spacing hb
  simp [hfront, hback]

/-- The end of a line is where a carriage return may stand and a newline, or nothing. -/
theorem startsAt_lineBreakAndBlank :
    (optional (literal "\r".toList) ++ lineBreakAndBlank).StartsAt before t ↔ AtLineEnd t := by
  constructor
  · rintro ⟨_, s, rfl, h⟩
    obtain ⟨r, b, rfl, hreturn, hbreak⟩ := matches_append.1 h
    refine ⟨r, b ++ s, List.append_assoc .., (matches_optional.1 hreturn).imp_left matches_literal.1, ?_⟩
    rcases matches_or.1 hbreak with hbreak | hbreak
    · obtain ⟨v, w, rfl, hnewline, -⟩ := matches_append.1 hbreak
      rw [matches_literal.1 hnewline]
      rfl
    · obtain ⟨rfl, rfl⟩ := matches_textEnd.1 hbreak
      rfl
  · rintro ⟨r, s, rfl, hr, hs⟩
    refine startsAt_append.2 ⟨r, s, rfl, matches_optional.2 (hr.imp_left matches_literal.2), ?_⟩
    cases s with
    | nil => exact ⟨[], [], rfl, matches_or.2 (.inr (matches_textEnd.2 ⟨rfl, rfl⟩))⟩
    | cons c s =>
        obtain rfl : c = '\n' := by simpa using hs
        refine ⟨['\n'], s, rfl, matches_or.2 (.inl (matches_append.2 ⟨['\n'], [], rfl, matches_literal.2 rfl, ?_⟩))⟩
        exact matches_optional.2 (.inr rfl)

/-- An action goes from a line that defines it over whole lines to one that ends it. -/
theorem startsAt_block : (block name).StartsAt before t ↔ OnNewLine before ∧
    ∃ u n f v, t = u ++ (n ++ (f ++ v)) ∧ IsHead name u ∧ newline.Matches none n [] ∧ EndsLine f
      ∧ LineHolds IsClose v := by
  constructor
  · rintro ⟨_, rest, rfl, h⟩
    obtain ⟨_, w, rfl, h, hbreak⟩ := matches_append.1 h
    obtain ⟨_, r, rfl, h, hreturn⟩ := matches_append.1 h
    obtain ⟨_, b, rfl, h, hb⟩ := matches_append.1 h
    obtain ⟨_, e, rfl, h, hend⟩ := matches_append.1 h
    obtain ⟨_, a, rfl, h, ha⟩ := matches_append.1 h
    obtain ⟨_, z, rfl, h, hstart⟩ := matches_append.1 h
    obtain ⟨_, f, rfl, h, -⟩ := matches_append.1 h
    obtain ⟨u, n, rfl, hfirst, hn⟩ := matches_append.1 h
    obtain ⟨hbefore, hhead⟩ := matches_head.1 hfirst
    obtain ⟨rfl, hline⟩ := matches_lineStart.1 hstart
    obtain rfl := matches_literal.1 hend
    rw [lastAfter_append] at hline hbreak
    have hlineEnd : AtLineEnd (r ++ (w ++ rest)) := startsAt_lineBreakAndBlank.1
      ⟨r ++ w, rest, (List.append_assoc ..).symm, matches_append.2 ⟨r, w, rfl, hreturn, hbreak⟩⟩
    refine ⟨hbefore, u, n, f, (a ++ ("end".toList ++ b)) ++ (r ++ (w ++ rest)), by simp, hhead,
      matches_newline.2 (matches_newline.1 hn), endsLine_of_onNewLine hline, ?_⟩
    exact ⟨_, _, rfl, ⟨a, b, rfl, matches_spacing.1 ha, matches_spacing.1 hb⟩, hlineEnd⟩
  · rintro ⟨hbefore, u, n, f, _, rfl, hhead, hn, hf, _, s, rfl, ⟨a, b, rfl, ha, hb⟩, hend⟩
    have hbreak : (optional (literal "\r".toList) ++ lineBreakAndBlank).StartsAt
        (lastAfter before (u ++ n ++ f ++ [] ++ a ++ "end".toList ++ b)) s := startsAt_lineBreakAndBlank.2 hend
    obtain ⟨_, rest, rfl, h⟩ := hbreak
    obtain ⟨r, w, rfl, hreturn, hbreak⟩ := matches_append.1 h
    rw [← lastAfter_append] at hbreak
    have hline : OnNewLine (lastAfter before (u ++ n)) := by
      rcases matches_newline.1 hn with rfl | rfl
      · exact onNewLine_lastAfter (.inr ⟨u ++ ['\r'], by simp⟩) hbefore
      · exact onNewLine_lastAfter Text.endsLine_newline hbefore
    have hstart : OnNewLine (lastAfter before (u ++ n ++ f)) := by
      rw [lastAfter_append]
      exact onNewLine_lastAfter hf hline
    refine ⟨u ++ n ++ f ++ [] ++ a ++ "end".toList ++ b ++ r ++ w, rest, by simp, ?_⟩
    refine matches_append.2 ⟨_, w, rfl, matches_append.2 ⟨_, r, rfl, ?_, hreturn⟩, hbreak⟩
    refine matches_append.2 ⟨_, b, rfl, matches_append.2 ⟨_, "end".toList, rfl, ?_, matches_literal.2 rfl⟩, matches_spacing.2 hb⟩
    refine matches_append.2 ⟨_, a, rfl, matches_append.2 ⟨_, [], rfl, ?_, matches_lineStart.2 ⟨rfl, hstart⟩⟩, matches_spacing.2 ha⟩
    refine matches_append.2 ⟨_, f, rfl, ?_, matches_few.2 fun _ _ => rfl⟩
    exact matches_append.2 ⟨u, n, rfl, matches_head.2 ⟨hbefore, hhead⟩, matches_newline.2 (matches_newline.1 hn)⟩

/-- What ends a line that no newline is in is a newline. -/
theorem AtLineEnd.matches_newline (hu : '\n' ∉ u) (hs : '\n' ∉ s) (heq : u ++ t = s ++ ['\n']) (h : AtLineEnd t) :
    newline.Matches before t rest := by
  obtain ⟨r, v, rfl, hr, hv⟩ := h
  have hur : '\n' ∉ u ++ r := by
    rcases hr with rfl | rfl
    · simpa using hu
    · simpa using hu
  rw [← List.append_assoc] at heq
  cases v with
  | nil =>
      rw [List.append_nil] at heq
      exact absurd (by simp [heq]) hur
  | cons c v =>
      obtain rfl : c = '\n' := by simpa using hv
      obtain rfl := Text.eq_of_first heq hur hs
      obtain ⟨-, rfl⟩ := List.cons_eq_cons.1 (List.append_cancel_left heq)
      exact Pattern.matches_newline.2 (hr.imp (by rintro rfl; rfl) (by rintro rfl; rfl))

/-- An action is told by a line that defines it and by one behind it that ends it. -/
theorem tellsLines_block (hname : '\n' ∉ name) : (block name).TellsLines fun line back =>
    LineHolds (IsHead name) line ∧ ∃ close ∈ back, LineHolds IsClose close where
  start := fun _ _ h => (startsAt_block.1 h).1
  line := by
    intro before line rest hbefore hfirst
    have hhead : ∀ u, IsHead name u → '\n' ∉ u := fun u hu => hu.newline_notMem hname
    constructor
    · intro h
      obtain ⟨-, u, n, f, v, heq, hu, hn, hf, hv⟩ := startsAt_block.1 h
      have hone : FirstLine (u ++ n) (f ++ v) ∧ AtLineEnd n := by
        rcases Pattern.matches_newline.1 hn with rfl | rfl
        · have hline : '\n' ∉ u ++ ['\r'] := by simpa using hhead u hu
          refine ⟨?_, ['\r'], ['\n'], rfl, .inl rfl, rfl⟩
          simpa using Text.firstLine_newline hline (f ++ v)
        · exact ⟨Text.firstLine_newline (hhead u hu) (f ++ v), [], ['\n'], rfl, .inr rfl, rfl⟩
      rw [← List.append_assoc] at heq
      have hlines := congrArg wholeLines heq
      rw [hfirst, hone.1] at hlines
      obtain ⟨rfl, hrest⟩ := List.cons_eq_cons.1 hlines
      refine ⟨⟨u, n, rfl, hu, hone.2⟩, ?_⟩
      have hne : v ≠ [] := by
        obtain ⟨_, s, rfl, ⟨a, b, rfl, -⟩, -⟩ := hv
        simp
      obtain ⟨close, tail, rfl, hclose⟩ := Text.exists_firstLine hne
      refine ⟨close, ?_, (lineHolds_append (fun _ hu => hu.newline_notMem) hclose).1 hv⟩
      rw [hrest, Text.wholeLines_append hf, hclose]
      simp
    · rintro ⟨⟨u, s, rfl, hu, hs⟩, close, hmem, hclose⟩
      obtain ⟨front, back, hlines⟩ := List.append_of_mem hmem
      obtain ⟨f, tail, rfl, hf, hfirst', -⟩ := Text.exists_of_wholeLines_eq hlines
      rcases hfirst.cases with ⟨l, hl, hnewline⟩ | ⟨-, hnil⟩
      · exact startsAt_block.2 ⟨hbefore, u, s, f, close ++ tail, List.append_assoc .., hu,
          hs.matches_newline (hhead u hu) hnewline hl, hf,
          (lineHolds_append (fun _ hu => hu.newline_notMem) hfirst').2 hclose⟩
      · rw [hnil] at hmem
        cases hmem
  behind := by
    rintro line back back' hsub ⟨hline, close, hmem, hclose⟩
    exact ⟨hline, close, hsub.subset hmem, hclose⟩

-- ============================================================ put in and taken out

/-- An action is put in front of the last `end` line, unless it is there. -/
theorem insert_cases (h : insert name t = .ok patched) :
    patched = none ∧ (definition name).occursIn t = true
      ∨ ∃ x y, t = x ++ y ∧ EndsLine x ∧ StartsAtEnd y ∧ patched = some (x ++ (emptyBlock name ++ y)) := by
  unfold insert at h
  split at h
  next hdefined =>
    cases h
    exact .inl ⟨rfl, hdefined⟩
  next =>
    have hend : ∃ l ∈ wholeLines t, Text.trim l = "end".toList := by
      by_contra hnone
      rw [splitAtLastEnd_eq_none fun l hl hend => hnone ⟨l, hl, hend⟩] at h
      cases h
    obtain ⟨x, y, rfl, hx, hy⟩ := exists_cut hend
    rw [Text.wholeLines_append hx, splitAtLastEnd_append hy] at h
    cases h
    refine .inr ⟨x, y, rfl, hx, hy, ?_⟩
    rw [Text.flatten_wholeLines, Text.flatten_wholeLines, List.append_assoc]

/-- An action that was put in is there. -/
theorem occursIn_insert (hname : Name.IsNormal name) (h : insert name t = .ok patched) :
    (definition name).occursIn (patched.getD t) = true := by
  rcases insert_cases h with ⟨rfl, hdefined⟩ | ⟨x, y, rfl, hx, -, rfl⟩
  · exact hdefined
  · have hbefore := onNewLine_lastAfter hx onNewLine_none
    have hline : (definition name).Prefers _ ("  def ".toList ++ name) ('\n' :: ("  end\n\n".toList ++ y)) :=
      prefers_definition hname hbefore
    have hstarts : (definition name).StartsAt (lastAfter none x) (emptyBlock name ++ y) := by
      have hhere := hline.startsAt
      rw [emptyBlock_text]
      simpa using hhere
    exact occursIn_of_startsAt hstarts (by simp [emptyBlock_text])

/-- An action that was taken out is gone. -/
theorem occursIn_block_remove (hname : '\n' ∉ name) (t : Text) :
    (block name).occursIn ((remove name t).getD t) = false := by
  unfold remove
  split
  next =>
    have hdelete := (tellsLines_block hname).occursIn_delete (Directives.matchesLines_block name) t
    have hsub := Directives.collapseBlankRuns_sublist ((block name).delete t)
    rw [Option.getD_some, Bool.eq_false_iff]
    intro h
    rw [(tellsLines_block hname).occursIn_of_sublist hsub h] at hdelete
    cases hdelete
  next hnone => exact Bool.eq_false_iff.2 hnone

end ControllerAction

-- ============================================================================ routes

namespace Route

open ControllerAction (StartsAtEnd emptyBlock)

/-- Whether a line is the declaration of a page's route. -/
def Declared (page action t : Text) : Prop := ∃ l ∈ Text.lines t, Text.trim l = pageDeclaration page action

/-- A route is put behind the line that opens the block of routes, unless it is there. -/
theorem insertPage_cases (h : insertPage page action t = .ok patched) :
    patched = none ∧ Declared page action t
      ∨ ∃ x y, t = x ++ y ∧ EndsLine x ∧ patched = some (x ++ (line (pageDeclaration page action) ++ y)) := by
  unfold insertPage at h
  dsimp only at h
  split at h
  next hdeclared =>
    cases h
    obtain ⟨l, hl, htrim⟩ := List.any_eq_true.1 hdeclared
    exact .inl ⟨rfl, l, hl, of_decide_eq_true htrim⟩
  next =>
    unfold insertLine at h
    split at h
    next front hit back hfirst =>
      cases h
      obtain ⟨htext, -, -⟩ := of_first?_eq_some hfirst
      refine .inr ⟨front ++ hit.text, back, ?_, endsLine_opener hfirst, ?_⟩
      · rw [htext, List.append_assoc]
      · simp
    next => cases h

/-- Only where no block is opened a route is refused. -/
theorem insertPage_of_opener (h : Declared page action t ∨ opener.occursIn t = true) :
    ∃ patched, insertPage page action t = .ok patched := by
  unfold insertPage
  dsimp only
  split
  next => exact ⟨none, rfl⟩
  next hnone =>
    rcases h with ⟨l, hl, htrim⟩ | hopener
    · exact absurd (List.any_eq_true.2 ⟨l, hl, decide_eq_true htrim⟩) hnone
    · obtain ⟨⟨front, hit, back⟩, hfirst⟩ := Option.isSome_iff_exists.1 hopener
      unfold insertLine
      rw [hfirst]
      exact ⟨_, rfl⟩

theorem of_insertPage (h : insertPage page action t = .ok patched) :
    Declared page action t ∨ opener.occursIn t = true := by
  by_cases hdeclared : Declared page action t
  · exact .inl hdeclared
  · right
    cases hfirst : opener.first? t with
    | some found =>
        unfold occursIn
        rw [hfirst]
        rfl
    | none =>
        exfalso
        unfold insertPage insertLine at h
        rw [hfirst] at h
        dsimp only at h
        split at h
        next hsome =>
          obtain ⟨l, hl, htrim⟩ := List.any_eq_true.1 hsome
          exact hdeclared ⟨l, hl, of_decide_eq_true htrim⟩
        next => cases h

/-- What is declared is so with more lines. -/
theorem Declared.insert (hx : EndsLine x) (hs : EndsLine s) (h : Declared page action (x ++ y)) :
    Declared page action (x ++ (s ++ y)) := by
  obtain ⟨l, hl, htrim⟩ := h
  refine ⟨l, ?_, htrim⟩
  rw [Text.lines_append hx] at hl ⊢
  rw [Text.lines_append hs]
  rcases List.mem_append.1 hl with hl | hl
  · exact List.mem_append_left _ hl
  · exact List.mem_append_right _ (List.mem_append_right _ hl)

/-- A route that was put in is there. -/
theorem declared_insertPage (hpage : Name.IsNormal page) (haction : Name.IsNormal action)
    (h : insertPage page action t = .ok patched) : Declared page action (patched.getD t) := by
  rcases insertPage_cases h with ⟨rfl, hdeclared⟩ | ⟨x, y, rfl, hx, rfl⟩
  · exact hdeclared
  · have hnormal : (Declaration.page page action).Normal := ⟨hpage, haction⟩
    refine ⟨"  ".toList ++ pageDeclaration page action, ?_, ?_⟩
    · have hline : Text.lines (line (pageDeclaration page action)) = ["  ".toList ++ pageDeclaration page action] :=
        lines_line hnormal
      show _ ∈ Text.lines (x ++ (line (pageDeclaration page action) ++ y))
      rw [Text.lines_append hx, Text.lines_append (endsLine_line _), hline]
      simp
    · have htrim := trim_line (.page page action) (t := []) (by simp)
      rwa [List.append_nil] at htrim

/-- A line that declares a route does so wherever it stands. -/
theorem startsAt_pageLine_of_occursIn (hone : wholeLines s = [s]) (h : (pageLine page).occursIn s = true)
    (hbefore : OnNewLine before) : (pageLine page).StartsAt before (s ++ rest) := by
  obtain ⟨u, v, rfl, hne, hstarts⟩ := exists_startsAt h
  obtain ⟨hstart, a, w, rfl, ha, hkeyed⟩ := startsAt_pageLine.1 hstarts
  rw [Text.wholeLines_append (endsLine_of_onNewLine hstart)] at hone
  obtain ⟨hu, -⟩ | ⟨-, hv⟩ := List.append_eq_singleton_iff.1 hone
  · have hnil := Text.flatten_wholeLines u
    rw [hu] at hnil
    subst hnil
    exact startsAt_pageLine.2 ⟨hbefore, a, w ++ rest, by simp, ha, hkeyed.append⟩
  · exact absurd hv (Text.wholeLines_ne_nil hne)

/-- No line is left that declares a route which was taken out. -/
theorem notMem_removePage (t : Text) :
    ∀ l ∈ wholeLines ((removePage page t).getD t), (pageLine page).occursIn l = false := by
  intro l hl
  rw [Bool.eq_false_iff]
  intro hoccurs
  have hstarts : ∀ start rest, OnNewLine start → (pageLine page).StartsAt start (l ++ rest) :=
    fun _ _ => startsAt_pageLine_of_occursIn (Text.wholeLines_of_mem hl) hoccurs
  unfold removePage at hl
  split at hl
  next => exact (Directives.matchesLines_pageLine page).notMem_wholeLines_delete hstarts t hl
  next hnone => exact hnone (occursIn_of_mem_wholeLines hstarts hl)

-- ================================================================== in a shared file

/-- An action in front of the last `end` line leaves a line that opens the block in one
piece. -/
theorem occursIn_opener_insert (hx : EndsLine x) (hlast : StartsAtEnd y) (h : opener.occursIn (x ++ y) = true)
    (s : Text) : opener.occursIn (x ++ (s ++ y)) = true := by
  obtain ⟨u, _, heq, hne, m, r, rfl, hmatches⟩ := exists_startsAt h
  have hnil : m ≠ [] := by
    obtain ⟨r, rfl, -⟩ := letter_of_opener hmatches
    simp
  have hfound : ∀ u v, opener.occursIn (u ++ (m ++ v)) = true :=
    fun u v => occursIn_of_startsAt (prefers_opener hmatches).startsAt (by simp [hnil])
  rw [← List.append_assoc] at heq
  rcases List.append_eq_append_iff.1 heq with ⟨w, hfront, rfl⟩ | ⟨w, rfl, rfl⟩
  · rcases List.append_eq_append_iff.1 hfront with ⟨z, rfl, hm⟩ | ⟨z, rfl, rfl⟩
    · by_cases hz : z = []
      · rw [hz, List.nil_append] at hm
        have hthere := hfound (u ++ z ++ s) r
        rw [hm] at hthere
        simpa using hthere
      · -- behind its newline there is white space and `do`, if anything
        obtain ⟨z, rfl⟩ := hx.of_append hz
        rw [hm, List.append_assoc, List.singleton_append] at hmatches
        rcases Pages.opener_behind_newline hmatches with rfl | ⟨g, r', rfl, hg⟩
        · have hthere := hfound u (s ++ r)
          rw [hm] at hthere
          simpa using hthere
        · obtain ⟨a, r'', hword, ha⟩ := hlast.exists_trim
          rw [List.append_assoc, List.append_assoc] at hword
          have hdo := Pages.ne_do_of_word hword hg ha (by simp [Text.isBlank])
          cases hdo
    · have hthere := hfound (x ++ (s ++ z)) r
      simpa using hthere
  · have hthere := hfound u (w ++ (s ++ y))
    simpa using hthere

/-- A route that is not refused is not refused when an action has been put in, either. -/
theorem insertPage_of_insertAction (haction : ControllerAction.insert name t = .ok patched)
    (h : ∃ patched, insertPage page action t = .ok patched) :
    ∃ patched', insertPage page action (patched.getD t) = .ok patched' := by
  rcases ControllerAction.insert_cases haction with ⟨rfl, -⟩ | ⟨x, y, rfl, hx, hy, rfl⟩
  · exact h
  · obtain ⟨patched', h⟩ := h
    refine insertPage_of_opener ((of_insertPage h).imp (fun hdeclared => ?_) fun hopener => ?_)
    · exact hdeclared.insert hx (ControllerAction.endsLine_emptyBlock name)
    · exact occursIn_opener_insert hx hy hopener (emptyBlock name)

end Route

namespace ControllerAction

/-- A route that is put in leaves an action there. -/
theorem occursIn_insertPage (hname : '\n' ∉ name) (h : Route.insertPage page action t = .ok patched)
    (hdefined : (definition name).occursIn t = true) : (definition name).occursIn (patched.getD t) = true := by
  rcases Route.insertPage_cases h with ⟨rfl, -⟩ | ⟨x, y, rfl, hx, rfl⟩
  · exact hdefined
  · refine (tellsLines_definition hname).occursIn_of_sublist ?_ hdefined
    rw [Option.getD_some, Text.wholeLines_append hx, Text.wholeLines_append hx,
      Text.wholeLines_append (Route.endsLine_line _)]
    exact .append (.refl _) (List.sublist_append_right ..)

/-- A route that is taken out brings no action back. -/
theorem occursIn_block_removePage (hname : '\n' ∉ name) (h : (block name).occursIn t = false) :
    (block name).occursIn ((Route.removePage page t).getD t) = false := by
  unfold Route.removePage
  split
  next =>
    have hsub := (Directives.matchesLines_pageLine page).delete_sublist t
    rw [Option.getD_some, Bool.eq_false_iff]
    intro hoccurs
    rw [(tellsLines_block hname).occursIn_of_sublist hsub hoccurs] at h
    cases h
  next => exact h

end ControllerAction

-- =========================================================================== layouts

namespace LayoutDirective

/-- A directive is put behind the line that opens the class, into a text that does not declare
its layout. -/
theorem insert_eq_ok (h : insert layout view hostClass t = .ok patched) :
    (declaration layout).occursIn t = false ∧ ∃ front hit back,
      (classLine hostClass).first? t = some (front, hit, back)
        ∧ patched = some (front ++ hit.text ++ (directive layout view ++ back)) := by
  unfold insert at h
  split at h
  next => cases h
  next habsent =>
    refine ⟨Bool.eq_false_iff.2 habsent, ?_⟩
    split at h
    next front hit back hfirst =>
      cases h
      exact ⟨front, hit, back, hfirst, by rw [List.append_assoc (front ++ hit.text)]⟩
    next => cases h

/-- A directive that was put in declares its layout. -/
theorem occursIn_insert (h : insert layout view hostClass t = .ok patched) :
    (declaration layout).occursIn (patched.getD t) = true := by
  obtain ⟨-, front, hit, back, -, rfl⟩ := insert_eq_ok h
  rw [Option.getD_some]
  by_contra habsent
  rw [Bool.not_eq_true, occursIn_eq_false_iff] at habsent
  exact not_clear_directive (clear_append.1 (clear_append.1 habsent).2).1

/-- What is left without a layout lacks the lines that declare it. -/
theorem remove_eq_some_iff :
    remove layout t = some u ↔ (directiveLine layout).occursIn t = true ∧ u = (directiveLine layout).delete t := by
  unfold remove
  split
  next hoccurs =>
    rw [Option.some_inj, eq_comm]
    exact ⟨fun h => ⟨hoccurs, h⟩, And.right⟩
  next hnot => exact iff_of_false (by simp) fun h => hnot h.1

/-- It is refused because its layout is declared, or because the class is not there. -/
theorem insert_eq_declared {other : Text} (h : insert layout view hostClass t = .error (.declared other)) :
    (declaration layout).occursIn t = true := by
  unfold insert at h
  split at h
  next hdeclared => exact hdeclared
  next =>
    split at h
    next => cases h
    next => cases h

end LayoutDirective

-- ============================================================================ anchors

/-- Whether a content has the text that a fragment is placed by, if the fragment is to be
placed. -/
def Fragment.Anchored (fragment : Fragment) (content : Text) : Prop :=
  ∀ anchor, fragment.insert content ≠ .error (.noAnchor anchor)

theorem Fragment.Anchored.of_isSome {fragment : Fragment} (h : (fragment.insert t).toOption.isSome) :
    fragment.Anchored t := by
  intro anchor hinsert
  rw [hinsert] at h
  cases h

/-- There a fragment is put in, unless its layout is declared. -/
theorem Fragment.Anchored.cases {fragment : Fragment} (h : fragment.Anchored t) :
    (∃ patched, fragment.insert t = .ok patched) ∨ ∃ layout, fragment.insert t = .error (.declared layout) := by
  cases hinsert : fragment.insert t with
  | ok patched => exact .inl ⟨patched, rfl⟩
  | error refusal =>
      cases refusal with
      | declared layout => exact .inr ⟨layout, rfl⟩
      | noAnchor anchor => exact absurd hinsert (h anchor)

/-- An action is refused only where no line closes anything. -/
theorem ControllerAction.insert_of_end (h : (splitAtLastEnd (Text.wholeLines t)).isSome) :
    ∃ patched, ControllerAction.insert name t = .ok patched := by
  unfold ControllerAction.insert
  split
  next => exact ⟨none, rfl⟩
  next =>
    obtain ⟨⟨front, back⟩, hsplit⟩ := Option.isSome_iff_exists.1 h
    rw [hsplit]
    exact ⟨_, rfl⟩

theorem Fragment.Anchored.of_insert {fragment : Fragment} (h : ∃ patched, fragment.insert t = .ok patched) :
    fragment.Anchored t := by
  obtain ⟨patched, hinsert⟩ := h
  exact .of_isSome (by rw [hinsert]; rfl)

theorem ControllerAction.exists_insert (h : (Fragment.action name).Anchored t) :
    ∃ patched, ControllerAction.insert name t = .ok patched := by
  refine h.cases.resolve_right ?_
  rintro ⟨layout, hinsert⟩
  have hinsert : ControllerAction.insert name t = .error (.declared layout) := hinsert
  unfold ControllerAction.insert at hinsert
  split at hinsert
  next => cases hinsert
  next =>
    split at hinsert
    next => cases hinsert
    next => cases hinsert

theorem Route.exists_insertPage (h : (Fragment.route page action).Anchored t) :
    ∃ patched, insertPage page action t = .ok patched := by
  refine h.cases.resolve_right ?_
  rintro ⟨layout, hinsert⟩
  have hinsert : insertPage page action t = .error (.declared layout) := hinsert
  unfold insertPage insertLine at hinsert
  dsimp only at hinsert
  split at hinsert
  next => cases hinsert
  next =>
    split at hinsert
    next => cases hinsert
    next => cases hinsert

end SiteScaffold.Patch

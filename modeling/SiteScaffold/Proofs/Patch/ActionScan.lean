/-
Taking an action out is a walk over the lines. The search that takes an action out goes over many
lines at once, with a run between them that is as short as possible; it comes to the same as the
walk that reads one line after the other (`remove_eq_scan`).

The induction is on the text, from one line to the next that the walk comes to; what it carries
is that a line starts there. At a line that is kept no match starts, since matches are told by
the lines (`clear_kept`). Where lines are dropped they are the match (`prefers_dropped`): the run
up to the closing line is the shortest one because no line in it closes the action
(`not_startsAt_closing`).

So all lines outside of the actions that are dropped are left, but for empty ones, and nothing is
dropped a second time (`remove_refines_scan`).
-/
import SiteScaffold.Proofs.Patch.ActionLines

namespace SiteScaffold.Patch.ControllerAction

open Pattern
open Text (EndsLine FirstLine wholeLines)

variable {name other body line e m rest t : Text} {before : Option Char}

-- ================================================================== the match at an action

/-- What closes an action: its last line and the blank line behind it. -/
def closing : Pattern :=
  (lineStart ++ spacing ++ "end" ++ spacing) ++ (optional "\r" ++ lineBreakAndBlank)

theorem of_startsAt_closing (h : closing.StartsAt before t) : OnNewLine before ∧ LineHolds IsClose t := by
  obtain ⟨_, s, rfl, hword, hend⟩ := startsAt_append.1 h
  simp only [matches_append, matches_lineStart, matches_spacing, matches_literal] at hword
  obtain ⟨_, b, rfl, ⟨_, _, rfl, ⟨_, a, rfl, ⟨rfl, hbefore⟩, ha⟩, rfl⟩, hb⟩ := hword
  exact ⟨hbefore, a ++ ("end".toList ++ b), s, by simp, ⟨a, b, rfl, ha, hb⟩, startsAt_lineBreakAndBlank.1 hend⟩

/-- In lines none of which closes an action nothing closes it. -/
theorem not_startsAt_closing {u v : Text} (hbody : body = u ++ v) (hends : EndsLine body)
    (hopen : ∀ l ∈ wholeLines body, closes l = false) (hne : v ≠ []) :
    ¬ closing.StartsAt (lastAfter before u) (v ++ rest) := by
  intro hstart
  obtain ⟨hline, hclose⟩ := of_startsAt_closing hstart
  obtain ⟨l, w, rfl, hfirst⟩ := Text.exists_firstLine hne
  have hmem : l ∈ wholeLines body := by
    rw [hbody, Text.wholeLines_append (endsLine_of_onNewLine hline), hfirst]
    simp
  have hbehind : FirstLine l (w ++ rest) := by
    rcases hfirst.cases with ⟨s, rfl, hs⟩ | ⟨hnone, rfl⟩
    · exact Text.firstLine_newline hs _
    · -- a last line would have its newline, too
      rw [List.append_nil] at hbody hne
      rw [hbody] at hends
      obtain ⟨r, rfl⟩ := hends.of_append hne
      simp at hnone
  rw [List.append_assoc, lineHolds_append (fun _ hu => hu.newline_notMem) hbehind,
    lineHolds_isClose_iff (Text.wholeLines_of_mem hmem), hopen l hmem] at hclose
  cases hclose

/-- A blank line is read where one stands. -/
theorem head_isBlankLine (h : (spacing ++ newline).StartsAt before t) : (wholeLines t).head?.any isBlankLine = true := by
  obtain ⟨a, _, rfl, ha, n, s, rfl, hn⟩ := startsAt_append.1 h
  rw [matches_spacing] at ha
  have he := mem_newlines_iff.2 hn
  have hblank : isBlankLine (a ++ n) = true := isBlankLine_iff.2 ⟨a, n, rfl, ha, he⟩
  have hline : FirstLine (a ++ n) s := by
    have hspacing := newline_notMem_spacing ha
    rcases matches_newline.1 hn with rfl | rfl
    · have hfirst : FirstLine ((a ++ ['\r']) ++ ['\n']) s := Text.firstLine_newline (by simpa using hspacing) s
      simpa using hfirst
    · exact Text.firstLine_newline hspacing s
  rw [← List.append_assoc, hline]
  exact hblank

/-- What stands behind the last word of an action: the end of the line, and a blank line or
none. -/
structure Ending (e m rest : Text) : Prop where
  lineEnd : e ∈ lineEnds
  last : e ∉ newlines → m = [] ∧ rest = []
  blank : isBlankLine m = true ∨ m = [] ∧ (wholeLines rest).head?.any isBlankLine = false

theorem Ending.prefers_blank (h : Ending e m rest) : (optional (spacing ++ newline)).Prefers before m rest := by
  rcases h.blank with hblank | ⟨rfl, hnone⟩
  · obtain ⟨a, n, rfl, ha, hn⟩ := isBlankLine_iff.1 hblank
    have hbreak : newline.Matches before n rest := mem_newlines_iff.1 hn
    refine prefers_optional (prefers_append (prefers_many ha ?_) (prefers_newline_of_matches hbreak))
    intro c hc
    refine (head_of_mem_lineEnds (mem_lineEnds hn) c ?_).1
    obtain ⟨r, rfl⟩ := endsLine_of_mem_newlines hn
    cases r with
    | nil => exact hc
    | cons d r => exact hc
  · refine prefers_optional_nil fun v w hrest hmatches => ?_
    rw [head_isBlankLine ⟨v, w, hrest, hmatches⟩] at hnone
    cases hnone

theorem Ending.prefers (h : Ending e m rest) :
    (optional "\r" ++ lineBreakAndBlank).Prefers before (e ++ m) rest := by
  have hreturn : ∀ {before rest}, '\r' ∉ rest.head? → (optional (literal "\r".toList)).Prefers before [] rest := by
    intro before rest hhead
    refine prefers_optional_nil fun v w hrest hmatches => hhead ?_
    rw [hrest, matches_literal.1 hmatches]
    rfl
  by_cases hnewline : e ∈ newlines
  · have hbreak : ∀ before, lineBreakAndBlank.Prefers before (['\n'] ++ m) rest :=
      fun before => prefers_or_left (prefers_append (prefers_literal _) h.prefers_blank)
    have hcases : e = ['\n'] ∨ e = ['\r', '\n'] := by simpa [newlines] using hnewline
    rcases hcases with rfl | rfl
    · exact prefers_append (t := []) (hreturn (by simp)) (hbreak _)
    · exact prefers_append (t := ['\r']) (prefers_optional (prefers_literal _)) (hbreak _)
  · obtain ⟨rfl, rfl⟩ := h.last hnewline
    have hend : ∀ before, lineBreakAndBlank.Prefers before [] [] := by
      refine fun before => prefers_or_right (fun v w hnil hmatches => ?_) prefers_textEnd
      obtain ⟨x, y, rfl, hx, -⟩ := matches_append.1 hmatches
      rw [matches_literal.1 hx] at hnil
      simp at hnil
    have hcases : e = [] ∨ e = ['\r'] := by
      have hall : ∀ e ∈ lineEnds, e ∈ newlines ∨ e = [] ∨ e = ['\r'] := by decide
      exact (hall e h.lineEnd).resolve_left hnewline
    rcases hcases with rfl | rfl
    · exact prefers_append (t := []) (hreturn (by simp)) (hend _)
    · exact prefers_append (t := ['\r']) (prefers_optional (prefers_literal _)) (hend _)

theorem prefers_closing {a b : Text} (hbefore : OnNewLine before) (ha : ∀ c ∈ a, isSpacing c)
    (hb : ∀ c ∈ b, isSpacing c) (h : Ending e m rest) :
    closing.Prefers before (a ++ "end".toList ++ b ++ (e ++ m)) rest := by
  have htext : a ++ "end".toList ++ b ++ (e ++ m) = ([] ++ a ++ "end".toList ++ b) ++ (e ++ m) := rfl
  rw [htext]
  refine prefers_append (prefers_append (prefers_append (prefers_append (prefers_lineStart hbefore) ?_)
    (prefers_literal _)) ?_) h.prefers
  · exact prefers_many ha (by simp [isSpacing])
  · refine prefers_many hb fun c hc => ?_
    rw [List.append_assoc] at hc
    cases e with
    | cons d e => exact (head_of_mem_lineEnds h.lineEnd c hc).1
    | nil =>
        obtain ⟨rfl, rfl⟩ := h.last (by decide)
        cases hc

/-- The match at an action is the line that defines it, lines that do not close it, the line that
does and a blank line behind that. -/
theorem prefers_action (hname : Name.IsNormal name) (hne : name ≠ []) (hbefore : OnNewLine before)
    (hfirst : defines name first = true) (hbody : EndsLine body) (hopen : ∀ l ∈ wholeLines body, closes l = false)
    {a b : Text} (ha : ∀ c ∈ a, isSpacing c) (hb : ∀ c ∈ b, isSpacing c) (h : Ending e m rest) :
    (block name).Prefers before (first ++ (body ++ (a ++ "end".toList ++ b ++ (e ++ m)))) rest := by
  obtain ⟨a', b', d, n, rfl, ha', hnil, hb', hd, hn⟩ := (defines_iff hname hne).1 hfirst
  have hhead : ∀ c ∈ n.head?, isSpacing c = false := fun c hc => (head_of_mem_lineEnds (mem_lineEnds hn) c hc).1
  have hnewline : newline.Matches none n [] := mem_newlines_iff.1 hn
  have hfront : ∀ r, ∀ c ∈ (n ++ r).head?, isSpacing c = false := by
    obtain ⟨x, rfl⟩ := endsLine_of_mem_newlines hn
    intro r
    cases x with
    | nil => exact hhead
    | cons c x => exact hhead
  have hline : OnNewLine (lastAfter before ([] ++ a' ++ "def".toList ++ b' ++ name ++ d ++ n)) := by
    obtain ⟨x, rfl⟩ := endsLine_of_mem_newlines hn
    rw [← List.append_assoc]
    exact onNewLine_lastAfter Text.endsLine_newline hbefore
  have htext : a' ++ ("def".toList ++ (b' ++ (name ++ (d ++ n)))) ++ (body ++ (a ++ "end".toList ++ b ++ (e ++ m)))
      = ([] ++ a' ++ "def".toList ++ b' ++ name ++ d ++ n) ++ (body ++ (a ++ "end".toList ++ b ++ (e ++ m))) := by simp
  rw [htext]
  -- sequences are read from the left, however they are put in brackets
  show ((head name ++ newline) ++ (few anything ++ closing)).Prefers _ _ _
  refine prefers_append (prefers_append (prefers_append (prefers_append (prefers_append (prefers_append
    (prefers_append (prefers_lineStart hbefore) ?_) (prefers_literal _)) ?_) (prefers_literal _)) ?_)
    (prefers_newline_of_matches hnewline)) ?_
  · exact prefers_many ha' (by simp [isSpacing])
  · exact prefers_oneOrMore hnil hb' (not_isSpacing_head hname hne _)
  · exact prefers_many hd (hfront _)
  · refine prefers_few_append (by simp [anything]) (fun u v hsplit hv => ?_) ?_
    · exact not_startsAt_closing hsplit hbody hopen hv
    · exact prefers_closing (onNewLine_lastAfter hbody hline) ha hb h

-- ======================================================================== the whole text

/-- At a line that the walk keeps no match starts. -/
theorem clear_kept (hname : Name.IsNormal name) (hne : name ≠ []) (hbefore : OnNewLine before)
    (hfirst : FirstLine line rest)
    (hkept : ¬ (defines name line = true ∧ ∃ l ∈ wholeLines rest, closes l = true)) :
    (block name).Clear before line rest := by
  have htells := tellsLines_block (hname.notMem (c := '\n') (by decide))
  refine clear_firstLine htells.start hfirst fun hstart => hkept ?_
  obtain ⟨hline, l, hl, hclose⟩ := (htells.line _ _ _ hbefore hfirst).1 hstart
  have hends : EndsLine line := by
    rcases hfirst.cases with ⟨s, rfl, -⟩ | ⟨-, rfl⟩
    · exact Text.endsLine_newline
    · cases hl
  exact ⟨(lineHolds_isHead_iff hname hne hfirst.wholeLines_eq).1 ⟨hline, hends⟩, l, hl,
    (lineHolds_isClose_iff (Text.wholeLines_of_mem hl)).1 hclose⟩

/-- Where the walk drops an action there is a match, which is the lines it drops. -/
theorem prefers_dropped (hname : Name.IsNormal name) (hne : name ≠ []) (hbefore : OnNewLine before)
    (hdefines : defines name line = true) {k : Nat} (hk : closingLength (wholeLines t) = some k) :
    ∃ u v, t = u ++ v ∧ wholeLines v = (wholeLines t).drop k ∧ (block name).Prefers before (line ++ u) v := by
  obtain ⟨body, close, blank, back, hlines, rfl, hopen, hclosing, hblank⟩ := of_closingLength hk
  have hsub : ∀ {ls : List Text}, ls.Sublist (wholeLines t) → wholeLines ls.flatten = ls :=
    fun hsub => Text.wholeLines_flatten_of_sublist hsub
  have hbody : EndsLine body.flatten := by
    obtain ⟨hall, -⟩ := Text.wholeLines_eq_append hlines (by simp)
    rw [← List.flatMap_id]
    exact Text.endsLine_flatMap fun l hl => (hall l hl).1
  have hopen : ∀ l ∈ wholeLines body.flatten, closes l = false := by
    rw [hsub (by rw [hlines]; exact List.sublist_append_left ..)]
    exact hopen
  have hback : wholeLines back.flatten = back := by
    refine hsub ?_
    rw [hlines]
    exact ((List.sublist_append_right blank back).trans (List.sublist_cons_self ..)).trans (List.sublist_append_right ..)
  obtain ⟨a, b, e, rfl, ha, hb, he⟩ := closes_iff.1 hclosing
  have hending : Ending e blank.flatten back.flatten := by
    refine ⟨he, fun hlast => ?_, ?_⟩
    · -- only the last line of the text may be without its newline
      by_cases hnil : blank ++ back = []
      · obtain ⟨rfl, rfl⟩ := List.append_eq_nil_iff.1 hnil
        exact ⟨rfl, rfl⟩
      · rw [List.append_cons] at hlines
        have hends := (Text.wholeLines_eq_append hlines hnil).1 _ (List.mem_append_right _ (List.mem_singleton_self _))
        have hword : '\n' ∉ a ++ ("end".toList ++ b) := by
          have hword : '\n' ∉ "end".toList := by decide
          simp only [List.mem_append, not_or]
          exact ⟨newline_notMem_spacing ha, hword, newline_notMem_spacing hb⟩
        have hcut : a ++ ("end".toList ++ (b ++ e)) = (a ++ ("end".toList ++ b)) ++ e := by simp
        rw [hcut] at hends
        exact absurd (mem_newlines_of_endsLine hword he hends.1 hends.2) hlast
    · rcases hblank with ⟨l, rfl, hl⟩ | ⟨rfl, hnone⟩
      · left
        simpa using hl
      · exact .inr ⟨rfl, by rw [hback]; exact hnone⟩
  refine ⟨body.flatten ++ (a ++ "end".toList ++ b ++ (e ++ blank.flatten)), back.flatten, ?_, ?_, ?_⟩
  · rw [← Text.flatten_wholeLines t, hlines]
    simp
  · rw [hback, hlines, List.append_cons, ← List.append_assoc]
    simp
  · exact prefers_action hname hne hbefore hdefines hbody hopen ha hb hending

/-- Deleting the matches leaves the lines that the walk keeps. -/
theorem rewritten_kept (hname : Name.IsNormal name) (hne : name ≠ []) (hbefore : OnNewLine before) (t : Text) :
    Rewritten (block name) (fun _ => []) before t ((parts name 0 (wholeLines t)).flatMap Part.kept).flatten := by
  -- on the length: the lines of an action are gone through at once
  induction hlen : t.length using Nat.strongRecOn generalizing before t with
  | ind n ih =>
      by_cases hnil : t = []
      · rw [hnil]
        exact .nil before
      obtain ⟨line, rest, rfl, hfirst⟩ := Text.exists_firstLine hnil
      have hpos : line ≠ [] := Text.ne_nil_of_mem_wholeLines (t := line ++ rest) (by rw [hfirst]; simp)
      have hlength := List.length_pos_iff.2 hpos
      rw [List.length_append] at hlen
      rw [hfirst]
      rcases parts_cases name line (wholeLines rest) with ⟨hkept, hparts⟩ | ⟨hdefines, k, hk, hparts⟩
      · rw [hparts, List.flatMap_cons, show (Part.keep line).kept = [line] from rfl, List.singleton_append,
          List.flatten_cons]
        have htail : Rewritten (block name) (fun _ => []) (lastAfter before line) rest
            ((parts name 0 (wholeLines rest)).flatMap Part.kept).flatten := by
          rcases hfirst.cases with ⟨s, rfl, -⟩ | ⟨-, rfl⟩
          · exact ih rest.length (by omega) (onNewLine_lastAfter Text.endsLine_newline hbefore) rest rfl
          · exact .nil _
        exact htail.clear (clear_kept hname hne hbefore hfirst hkept)
      · obtain ⟨u, v, rfl, hv, hprefers⟩ := prefers_dropped hname hne hbefore hdefines hk
        rw [hparts, List.flatMap_cons, show (Part.drop (line :: _)).kept = [] from rfl, List.nil_append, ← hv]
        obtain ⟨hit, hmatch, htext⟩ := matchAt_of_prefers hprefers
        rw [← List.append_assoc, ← htext]
        rw [← htext] at hmatch hprefers
        refine .hit before hit v _ (by simp [htext, hpos]) hmatch ?_
        by_cases hend : v = []
        · rw [hend]
          exact .nil _
        · obtain ⟨rest', heq, haccepts⟩ := matchAt_sound hmatch
          obtain rfl := List.append_cancel_left heq
          rcases (Directives.matchesLines_block name).stop _ _ _ ⟨_, haccepts⟩ with ⟨s, hs⟩ | ⟨-, hnone⟩
          · refine ih v.length (by simp at hlen; omega) ?_ v rfl
            rw [hs]
            exact onNewLine_lastAfter Text.endsLine_newline hbefore
          · exact absurd hnone hend

/-- An action is found exactly if the walk drops one. -/
theorem occursIn_block_iff (hname : Name.IsNormal name) (hne : name ≠ []) (t : Text) :
    (block name).occursIn t = (parts name 0 (wholeLines t)).any Part.isDrop := by
  rw [Bool.eq_iff_iff, (tellsLines_block (hname.notMem (c := '\n') (by decide))).occursIn_iff, any_isDrop_iff]
  constructor
  · rintro ⟨front, line, back, hlines, hline, l, hl, hclose⟩
    have hone : wholeLines line = [line] := Text.wholeLines_of_mem (t := t) (by rw [hlines]; simp)
    have hends : EndsLine line := by
      rw [List.append_cons] at hlines
      exact ((Text.wholeLines_eq_append hlines (List.ne_nil_of_mem hl)).1 line (by simp)).1
    refine ⟨front, line, back, hlines, (lineHolds_isHead_iff hname hne hone).1 ⟨hline, hends⟩, l, hl, ?_⟩
    exact (lineHolds_isClose_iff (Text.wholeLines_of_mem (t := t) (by rw [hlines]; simp [hl]))).1 hclose
  · rintro ⟨front, line, back, hlines, hdefines, l, hl, hclose⟩
    have hone : wholeLines line = [line] := Text.wholeLines_of_mem (t := t) (by rw [hlines]; simp)
    refine ⟨front, line, back, hlines, ((lineHolds_isHead_iff hname hne hone).2 hdefines).1, l, hl, ?_⟩
    exact (lineHolds_isClose_iff (Text.wholeLines_of_mem (t := t) (by rw [hlines]; simp [hl]))).2 hclose

/-- Taking an action out is the walk over the lines. -/
theorem remove_eq_scan (hname : Name.IsNormal name) (hne : name ≠ []) (t : Text) : remove name t = scan name t := by
  have hdelete : (block name).delete t = ((parts name 0 (wholeLines t)).flatMap Part.kept).flatten :=
    (rewritten_kept hname hne onNewLine_none t).rewrite_eq
  rw [remove, occursIn_block_iff hname hne, hdelete, collapseBlankRuns_eq]
  rfl

-- ========================================================================= what is left

/-- Of the lines that are kept only empty ones are lost, where there are more than two newlines. -/
theorem filter_wholeLines_remove (hname : Name.IsNormal name) (hne : name ≠ []) {u : Text} (h : remove name t = some u) :
    (wholeLines u).filter (· ≠ ['\n']) = ((parts name 0 (wholeLines t)).flatMap Part.kept).filter (· ≠ ['\n']) := by
  rw [remove_eq_scan hname hne] at h
  unfold scan at h
  dsimp only at h
  split at h
  next =>
    obtain rfl := Option.some.inj h
    have hcut := Text.filter_wholeLines_cutRuns (a := []) 0 (by simp) (fun h => absurd rfl h)
      ((parts name 0 (wholeLines t)).flatMap Part.kept).flatten
    rw [List.nil_append, List.nil_append] at hcut
    rw [hcut, Text.wholeLines_flatten_of_sublist (sublist_kept name (wholeLines t))]
  next => cases h

/-- Lines that define another action stay, as long as they stand outside of the action or define
it. -/
theorem filter_defines_remove (hname : Name.IsNormal name) (hne : name ≠ []) (hother : Name.IsNormal other)
    (hdiff : other ≠ name) {u : Text} (h : remove name t = some u)
    (houtside : ∀ ls, .drop ls ∈ parts name 0 (wholeLines t) → ∀ l ∈ ls.tail, defines other l = false) :
    (wholeLines u).filter (defines other ·) = (wholeLines t).filter (defines other ·) := by
  have hempty : ∀ lines : List Text, (lines.filter (· ≠ ['\n'])).filter (defines other ·) = lines.filter (defines other ·) := by
    intro lines
    rw [List.filter_filter]
    refine List.filter_congr fun l _ => ?_
    by_cases hl : l = ['\n']
    · rw [hl]
      rfl
    · simp [hl]
  have hkept := congrArg (List.filter (defines other ·)) (filter_wholeLines_remove hname hne h)
  rw [hempty, hempty, filter_kept, flatMap_lines_parts] at hkept
  · exact hkept
  · intro ls hls l hl
    obtain ⟨line, span, rfl, hdefines⟩ := defines_of_mem_parts hls
    rcases List.mem_cons.1 hl with rfl | hl
    · rw [Bool.eq_false_iff]
      exact fun hdefined => hdiff (eq_of_defines hname hother hdefines hdefined)
    · exact houtside _ hls l hl

/-- Taking an action out is the walk over the lines, on every text. Nothing is to be done exactly
if the walk drops nothing. What is left are the lines that the walk keeps, but for some that are
empty, and there the action is not found again. The walk drops lines from one on that defines the
action and no other, so the lines that define another action are all left, unless one of them
stands within the lines that are dropped. -/
theorem remove_refines_scan (hname : Name.IsNormal name) (hne : name ≠ []) (c : Text) :
    remove name c = scan name c
      ∧ (remove name c = none ↔ ∀ part ∈ parts name 0 (wholeLines c), part.isDrop = false)
      ∧ (parts name 0 (wholeLines c)).flatMap Part.lines = wholeLines c
      ∧ (∀ ls, .drop ls ∈ parts name 0 (wholeLines c) → ∃ line span, ls = line :: span ∧ defines name line = true
        ∧ ∀ other, Name.IsNormal other → defines other line = true → other = name)
      ∧ ∀ u, remove name c = some u →
        (wholeLines u).filter (· ≠ ['\n']) = ((parts name 0 (wholeLines c)).flatMap Part.kept).filter (· ≠ ['\n'])
          ∧ (∀ other, Name.IsNormal other → other ≠ name →
            (∀ ls, .drop ls ∈ parts name 0 (wholeLines c) → ∀ l ∈ ls.tail, defines other l = false) →
            (wholeLines u).filter (defines other ·) = (wholeLines c).filter (defines other ·))
          ∧ remove name u = none := by
  refine ⟨remove_eq_scan hname hne c, ?_, flatMap_lines_parts name _, fun ls hls => ?_, fun u hu => ⟨?_, ?_, ?_⟩⟩
  · have hnone : (∀ part ∈ parts name 0 (wholeLines c), part.isDrop = false)
        ↔ (parts name 0 (wholeLines c)).any Part.isDrop = false := by simp
    rw [remove_eq_scan hname hne, hnone, scan]
    cases (parts name 0 (wholeLines c)).any Part.isDrop with
    | true => exact iff_of_false (by simp) (by simp)
    | false => exact iff_of_true rfl rfl
  · obtain ⟨line, span, rfl, hdefines⟩ := defines_of_mem_parts hls
    exact ⟨line, span, rfl, hdefines, fun other hother => eq_of_defines hname hother hdefines⟩
  · exact filter_wholeLines_remove hname hne hu
  · exact fun other hother hdiff => filter_defines_remove hname hne hother hdiff hu
  · have hgone := occursIn_block_remove (hname.notMem (c := '\n') (by decide)) c
    rw [hu, Option.getD_some] at hgone
    rw [remove, hgone]
    rfl

/-- Two definitions of the action, one with carriage returns and one whose `end` is the end of the
text, and between them an action whose name goes on. -/
theorem remove_refines_scan_twice :
    remove "new" "  def new\r\n    x\r\n  end\r\n\n\n\n  def news\n  end\n\n\n\tdef  new \n end"
      = some "\n\n  def news\n  end\n\n".toList := by
  have hname : Name.IsNormal "new" := ⟨"New", by decide +kernel⟩
  have hscan := (remove_refines_scan hname (by decide)
    "  def new\r\n    x\r\n  end\r\n\n\n\n  def news\n  end\n\n\n\tdef  new \n end").1
  rw [hscan]
  decide +kernel

end SiteScaffold.Patch.ControllerAction

/-
The root route in any routes file. A root line is told by the line alone, and the match at one is
the line (`prefers_line`), so a search for root lines goes over the file line by line
(`pieces_rootLine_eq`): the matches are the root lines, and what is between them are the other
lines.

So an insertion that finds root lines leaves the other lines, in their order, with the new line
in the place of the first root line (`replaceFirstHit_pieces`); one that finds none puts the new
line behind the one that opens the block of routes. Either way the new line is the only root line
there is then (`hits_rootLine_of_lines`), and a second insertion has nothing to do.
-/
import SiteScaffold.Proofs.Patch.Presence

namespace SiteScaffold.Patch.Route

open Pattern
open Text (EndsLine FirstLine wholeLines)

variable {action s t u rest : Text} {before : Option Char}

-- ================================================================================= root lines

theorem newline_notMem_root {a : Text} (ha : ∀ c ∈ a, isSpacing c) : '\n' ∉ a ++ "root".toList := by
  have hroot : '\n' ∉ "root".toList := by decide
  rw [List.mem_append, not_or]
  exact ⟨newline_notMem_spacing ha, hroot⟩

/-- Behind a newline nothing tells whether a line is a root line. -/
theorem indented_isRoot_newline {rest' : Text} (h : Indented IsRoot (s ++ '\n' :: rest)) :
    Indented IsRoot (s ++ '\n' :: rest') := by
  obtain ⟨a, _, hline, ha, r, rfl, hr⟩ := h
  have hword := newline_notMem_root ha
  rw [← List.append_assoc] at hline
  obtain ⟨y, rfl, rfl⟩ := Text.exists_append_of_notMem hline hword
  refine ⟨a, "root".toList ++ (y ++ '\n' :: rest'), by simp, ha, _, rfl, ?_⟩
  cases y with
  | nil => rfl
  | cons c y => exact hr

/-- A root line is told by the line. -/
theorem tellsLines_rootLine : rootLine.TellsLines fun line _ => Indented IsRoot line where
  start := fun _ _ h => (startsAt_rootLine.1 h).1
  line := by
    intro before line rest hbefore hfirst
    rw [startsAt_rootLine, and_iff_right hbefore]
    rcases hfirst.cases with ⟨s, rfl, -⟩ | ⟨-, rfl⟩
    · rw [List.append_assoc, List.singleton_append]
      exact ⟨indented_isRoot_newline, indented_isRoot_newline⟩
    · rw [List.append_nil]
  behind := fun _ _ _ _ h => h

theorem occursIn_rootLine_iff {line : Text} (hone : wholeLines line = [line]) :
    rootLine.occursIn line = true ↔ Indented IsRoot line := by
  rw [tellsLines_rootLine.occursIn_iff, hone]
  constructor
  · rintro ⟨front, l, back, hlines, hroot⟩
    obtain ⟨-, heq⟩ | ⟨-, hnil⟩ := List.append_eq_singleton_iff.1 hlines.symm
    · obtain ⟨rfl, -⟩ := List.cons_eq_cons.1 heq
      exact hroot
    · cases hnil
  · exact fun hroot => ⟨[], line, [], rfl, hroot⟩

/-- The match at a root line is the line. -/
theorem prefers_line {line : Text} (hbefore : OnNewLine before) (hfirst : FirstLine line rest)
    (hroot : Indented IsRoot line) : rootLine.Prefers before line rest := by
  obtain ⟨a, _, rfl, ha, w, rfl, hw⟩ := hroot
  have hword := newline_notMem_root ha
  obtain ⟨b, e, rfl, hb, he⟩ : ∃ b e, w = b ++ e ∧ '\n' ∉ b ∧ (e = ['\n'] ∨ e = [] ∧ rest = []) := by
    rcases hfirst.cases with ⟨s, heq, hs⟩ | ⟨hnone, hnil⟩
    · rw [← List.append_assoc] at heq
      obtain ⟨y, rfl, rfl⟩ := Text.exists_append_of_notMem heq.symm hword
      exact ⟨y, ['\n'], rfl, fun hmem => hs (List.mem_append_right _ hmem), .inl rfl⟩
    · refine ⟨w, [], (List.append_nil w).symm, fun hmem => hnone ?_, .inr ⟨rfl, hnil⟩⟩
      exact List.mem_append_right _ (List.mem_append_right _ hmem)
  have hline : ∀ c ∈ b, inLine c := by
    intro c hc
    have hne : c ≠ '\n' := by
      rintro rfl
      exact hb hc
    simp [inLine, hne]
  have hedge : ((b ++ (e ++ rest)).head?.any Text.isWord) = false := by
    cases b with
    | cons c b => exact hw
    | nil =>
        rcases he with rfl | ⟨rfl, rfl⟩
        · rfl
        · rfl
  have htext : a ++ ("root".toList ++ (b ++ e)) = [] ++ a ++ "root".toList ++ [] ++ b ++ e := by simp
  rw [htext]
  refine prefers_append (prefers_append (prefers_append (prefers_append (prefers_append
    (prefers_lineStart hbefore) ?_) (prefers_literal _)) (prefers_boundary ?_)) ?_) ?_
  · exact prefers_many ha (by simp [isSpacing])
  · have hletters : [] ++ a ++ "root".toList = (a ++ "roo".toList) ++ ['t'] := by simp
    rw [hletters, lastAfter_concat, hedge]
    rfl
  · refine prefers_many hline ?_
    rcases he with rfl | ⟨rfl, rfl⟩
    · simp [inLine]
    · simp
  · rcases he with rfl | ⟨rfl, rfl⟩
    · exact prefers_lineBreak
    · exact prefers_lineBreak_textEnd

/-- A file is searched for root lines line by line. -/
theorem pieces_rootLine_eq (t : Text) : rootLine.pieces t = (wholeLines t).flatMap (linePieces rootLine.occursIn) := by
  refine pieces_eq_flatMap (by decide) (fun before line rest hbefore hfirst hroot => ?_)
    (fun before line rest hbefore hfirst hroot => ?_) t
  · exact matchAt_of_prefers (prefers_line hbefore hfirst ((occursIn_rootLine_iff hfirst.wholeLines_eq).1 hroot))
  · refine clear_firstLine tellsLines_rootLine.start hfirst fun hstart => ?_
    have hline := (tellsLines_rootLine.line _ _ _ hbefore hfirst).1 hstart
    rw [(occursIn_rootLine_iff hfirst.wholeLines_eq).2 hline] at hroot
    cases hroot

/-- The matches are the root lines. -/
theorem hits_rootLine_eq (t : Text) :
    rootLine.hits t = ((wholeLines t).filter rootLine.occursIn).map fun line => ⟨line, []⟩ := by
  rw [hits, pieces_rootLine_eq, filterMap_linePieces]

-- ============================================================================= one of them left

/-- The first line that is a match is replaced, and the other lines are left without matches. -/
theorem replaceFirstHit_pieces {isHit : Text → Bool} {front back : List Text} {line new : Text}
    (hfront : ∀ l ∈ front, isHit l = false) (hline : isHit line = true) :
    replaceFirstHit new ((front ++ line :: back).flatMap (linePieces isHit))
      = front.flatten ++ (new ++ (back.filter (!isHit ·)).flatten) := by
  have hplain : front.flatMap (linePieces isHit) = front.flatten.map .plain := by
    rw [List.map_flatten, ← List.flatMap_def]
    refine List.flatMap_congr fun l hl => ?_
    rw [linePieces, hfront l hl]
    rfl
  have hspan : ((front ++ line :: back).flatMap (linePieces isHit)).span (·.hit?.isNone)
      = (front.flatten.map .plain, .hit ⟨line, []⟩ :: back.flatMap (linePieces isHit)) := by
    rw [List.flatMap_append, List.flatMap_cons, hplain, linePieces, if_pos hline]
    refine span_append (fun piece hpiece => ?_) rfl
    obtain ⟨c, -, rfl⟩ := List.mem_map.1 hpiece
    rfl
  have htext : (front.flatten.map Piece.plain).flatMap Piece.text = front.flatten := by
    rw [List.flatMap_map]
    exact List.flatMap_singleton' _
  simp only [replaceFirstHit, hspan, htext, List.drop_succ_cons, List.drop_zero, flatMap_write_linePieces,
    List.isEmpty_cons, Bool.false_eq_true, if_false, List.append_assoc]

/-- What an insertion does: with root lines it puts the new one in the place of the first and
leaves out the others, unless there is one and it is the same; without, it goes by the line that
opens the block. -/
theorem insertRoot_cases (action c : Text) :
    (∀ l ∈ wholeLines c, rootLine.occursIn l = false)
        ∧ insertRoot action c = (insertLine (rootDeclaration action) c).map some
      ∨ ∃ front root back, wholeLines c = front ++ root :: back ∧ (∀ l ∈ front, rootLine.occursIn l = false)
        ∧ rootLine.occursIn root = true
        ∧ ((∀ l ∈ back, rootLine.occursIn l = false) ∧ Text.trim root = rootDeclaration action
            ∧ insertRoot action c = .ok none
          ∨ insertRoot action c = .ok (some (front.flatten ++ (line (rootDeclaration action)
            ++ (back.filter (!rootLine.occursIn ·)).flatten)))) := by
  by_cases hany : ∃ l ∈ wholeLines c, rootLine.occursIn l = true
  · right
    obtain ⟨root, hfind⟩ := Option.isSome_iff_exists.1 (List.find?_isSome.2 hany)
    obtain ⟨hroot, front, back, hlines, hbefore⟩ := List.find?_eq_some_iff_append.1 hfind
    have hfront : ∀ l ∈ front, rootLine.occursIn l = false := by simpa using hbefore
    have hreplace : replaceFirstHit (line (rootDeclaration action))
          ((front ++ root :: back).flatMap (linePieces rootLine.occursIn))
        = front.flatten ++ (line (rootDeclaration action) ++ (back.filter (!rootLine.occursIn ·)).flatten) :=
      replaceFirstHit_pieces hfront hroot
    have hhits : rootLine.hits c = ⟨root, []⟩ :: (back.filter rootLine.occursIn).map fun line => ⟨line, []⟩ := by
      have hnone : front.filter rootLine.occursIn = [] :=
        List.filter_eq_nil_iff.2 fun l hl => by simp [hfront l hl]
      rw [hits_rootLine_eq, hlines, List.filter_append, hnone, List.nil_append, List.filter_cons_of_pos hroot,
        List.map_cons]
    refine ⟨front, root, back, hlines, hfront, hroot, ?_⟩
    unfold insertRoot
    dsimp only
    rw [pieces_rootLine_eq, hlines, hreplace, hhits]
    cases hback : back.filter rootLine.occursIn with
    | nil =>
        by_cases htrim : Text.trim root = rootDeclaration action
        · left
          refine ⟨fun l hl => ?_, htrim, if_pos htrim⟩
          simpa using List.filter_eq_nil_iff.1 hback l hl
        · right
          exact if_neg htrim
    | cons l ls => exact .inr rfl
  · left
    have hnone : ∀ l ∈ wholeLines c, rootLine.occursIn l = false := by simpa using hany
    refine ⟨hnone, ?_⟩
    have hhits : rootLine.hits c = [] := by
      rw [hits_rootLine_eq, List.filter_eq_nil_iff.2 fun l hl => by simp [hnone l hl]]
      rfl
    unfold insertRoot
    rw [hhits]

-- ================================================================================= any file

variable {front back : List Text}

theorem wholeLines_rootDeclaration (haction : '\n' ∉ action) :
    wholeLines (line (rootDeclaration action)) = [line (rootDeclaration action)] := by
  refine Text.wholeLines_line (s := "  ".toList ++ rootDeclaration action) ?_
  rw [rootDeclaration_eq]
  simp [haction]

/-- The line of a root declaration is a root line. -/
theorem occursIn_rootDeclaration (haction : '\n' ∉ action) :
    rootLine.occursIn (line (rootDeclaration action)) = true := by
  refine (occursIn_rootLine_iff (wholeLines_rootDeclaration haction)).2 ?_
  refine ⟨"  ".toList, "root".toList ++ (" \"home#".toList ++ (action ++ ['"']) ++ ['\n']), ?_, by decide, _, rfl, rfl⟩
  rw [line, rootDeclaration_eq]
  simp

theorem trim_rootDeclaration (action : Text) :
    Text.trim (line (rootDeclaration action)) = rootDeclaration action := by
  have hblank : ∀ c ∈ "\n".toList, Text.isBlank c := by decide
  exact trim_line (.root action) hblank

/-- A root line between lines that are none is the only match. -/
theorem hits_rootLine_of_lines {root : Text} (hlines : wholeLines u = front ++ root :: back)
    (hroot : rootLine.occursIn root = true) (hfront : ∀ l ∈ front, rootLine.occursIn l = false)
    (hback : ∀ l ∈ back, rootLine.occursIn l = false) : rootLine.hits u = [⟨root, []⟩] := by
  have hnone : ∀ {ls : List Text}, (∀ l ∈ ls, rootLine.occursIn l = false) → ls.filter rootLine.occursIn = [] :=
    fun h => List.filter_eq_nil_iff.2 fun l hl => by simp [h l hl]
  rw [hits_rootLine_eq, hlines, List.filter_append, hnone hfront, List.nil_append,
    List.filter_cons_of_pos hroot, hnone hback]
  rfl

/-- With a root declaration between lines that are no root lines there is nothing left to do. -/
theorem of_wholeLines_eq (haction : '\n' ∉ action) (hlines : wholeLines u = front ++ line (rootDeclaration action) :: back)
    (hfront : ∀ l ∈ front, rootLine.occursIn l = false) (hback : ∀ l ∈ back, rootLine.occursIn l = false) :
    rootLine.hits u = [⟨line (rootDeclaration action), []⟩] ∧ insertRoot action u = .ok none := by
  have hhits := hits_rootLine_of_lines hlines (occursIn_rootDeclaration haction) hfront hback
  refine ⟨hhits, ?_⟩
  unfold insertRoot
  rw [hhits]
  exact if_pos (trim_rootDeclaration action)

/-- A declaration behind whole lines and in front of others is one more line. -/
theorem wholeLines_put (haction : '\n' ∉ action) (hends : EndsLine front.flatten)
    (hfront : wholeLines front.flatten = front) (hback : wholeLines back.flatten = back) :
    wholeLines (front.flatten ++ (line (rootDeclaration action) ++ back.flatten))
      = front ++ line (rootDeclaration action) :: back := by
  rw [Text.wholeLines_append hends, Text.wholeLines_append (endsLine_line _), wholeLines_rootDeclaration haction,
    hfront, hback]
  rfl

/-- What an insertion of the root route leaves of a file: where the new line stands, and what
stands around it. -/
structure Normalized (action c u : Text) (front back : List Text) : Prop where
  lines : wholeLines u = front ++ line (rootDeclaration action) :: back
  others : front ++ back = (wholeLines c).filter (!rootLine.occursIn ·)

theorem Normalized.not_root {c : Text} (h : Normalized action c u front back) :
    (∀ l ∈ front, rootLine.occursIn l = false) ∧ ∀ l ∈ back, rootLine.occursIn l = false := by
  have hall : ∀ l ∈ front ++ back, rootLine.occursIn l = false := by
    intro l hl
    rw [h.others] at hl
    simpa using (List.mem_filter.1 hl).2
  exact ⟨fun l hl => hall l (List.mem_append_left _ hl), fun l hl => hall l (List.mem_append_right _ hl)⟩

/-- A file has a root line if one of its lines is one. -/
theorem occursIn_rootLine_eq (c : Text) : rootLine.occursIn c = (wholeLines c).any rootLine.occursIn := by
  rw [Bool.eq_iff_iff, tellsLines_rootLine.occursIn_iff, List.any_eq_true]
  constructor
  · rintro ⟨front, l, back, hlines, hroot⟩
    have hl : l ∈ wholeLines c := by
      rw [hlines]
      simp
    exact ⟨l, hl, (occursIn_rootLine_iff (Text.wholeLines_of_mem hl)).2 hroot⟩
  · rintro ⟨l, hl, hroot⟩
    obtain ⟨front, back, hlines⟩ := List.append_of_mem hl
    exact ⟨front, l, back, hlines, (occursIn_rootLine_iff (Text.wholeLines_of_mem hl)).1 hroot⟩

/-- A file without root lines gets one behind the line that opens the block. -/
theorem insertRoot_of_none {c : Text} (haction : '\n' ∉ action) (hnone : ∀ l ∈ wholeLines c, rootLine.occursIn l = false)
    (hinsert : (insertLine (rootDeclaration action) c).map some = .ok (some u)) :
    ∃ front back, Normalized action c u front back ∧ ∃ start opening rest, opener.first? c = some (start, opening, rest)
      ∧ front.flatten = start ++ opening.text := by
  unfold insertLine at hinsert
  cases hfirst : opener.first? c with
  | none =>
      rw [hfirst] at hinsert
      cases hinsert
  | some found =>
      obtain ⟨start, opening, rest⟩ := found
      rw [hfirst] at hinsert
      obtain rfl : start ++ opening.text ++ line (rootDeclaration action) ++ rest = u := by
        cases hinsert
        rfl
      obtain ⟨hc, -, -⟩ := of_first?_eq_some hfirst
      have hends := endsLine_opener hfirst
      have hfront := Text.flatten_wholeLines (start ++ opening.text)
      have hback := Text.flatten_wholeLines rest
      refine ⟨wholeLines (start ++ opening.text), wholeLines rest, ⟨?_, ?_⟩, start, opening, rest, rfl, hfront⟩
      · have hput : wholeLines ((wholeLines (start ++ opening.text)).flatten
              ++ (line (rootDeclaration action) ++ (wholeLines rest).flatten))
            = wholeLines (start ++ opening.text) ++ line (rootDeclaration action) :: wholeLines rest :=
          wholeLines_put haction (by rwa [hfront]) (by rw [hfront]) (by rw [hback])
        rw [hfront, hback] at hput
        rw [List.append_assoc, hput]
      · have hall : (wholeLines c).filter (!rootLine.occursIn ·) = wholeLines c :=
          List.filter_eq_self.2 fun l hl => by simp [hnone l hl]
        rw [hall, hc, ← List.append_assoc, Text.wholeLines_append hends]

/-- A file with root lines gets the new one in the place of the first. -/
theorem normalized_of_root {c root : Text} (haction : '\n' ∉ action) (hlines : wholeLines c = front ++ root :: back)
    (hfront : ∀ l ∈ front, rootLine.occursIn l = false) (hroot : rootLine.occursIn root = true) :
    Normalized action c (front.flatten ++ (line (rootDeclaration action) ++ (back.filter (!rootLine.occursIn ·)).flatten))
        front (back.filter (!rootLine.occursIn ·))
      ∧ front = (wholeLines c).takeWhile (!rootLine.occursIn ·) := by
  have hother : ∀ l ∈ front, (!rootLine.occursIn l) = true := by simpa using hfront
  refine ⟨⟨wholeLines_put haction ?_ ?_ ?_, ?_⟩, ?_⟩
  · rw [← List.flatMap_id]
    exact Text.endsLine_flatMap fun l hl => ((Text.wholeLines_eq_append hlines (by simp)).1 l hl).1
  · refine Text.wholeLines_flatten_of_sublist (t := c) ?_
    rw [hlines]
    exact List.sublist_append_left ..
  · refine Text.wholeLines_flatten_of_sublist (t := c) ?_
    rw [hlines]
    exact (List.filter_sublist.trans (List.sublist_cons_self ..)).trans (List.sublist_append_right ..)
  · rw [hlines, List.filter_append, List.filter_eq_self.2 hother, List.filter_cons_of_neg (by simp [hroot])]
  · rw [hlines, List.takeWhile_append_of_pos hother, List.takeWhile_cons_of_neg (by simp [hroot]), List.append_nil]

/-- The file that an insertion gives has the new line where the first root line stood, or behind
the line that opens the block. -/
theorem insertRoot_eq_some {c : Text} (haction : '\n' ∉ action) (h : insertRoot action c = .ok (some u)) :
    ∃ front back, Normalized action c u front back
      ∧ if rootLine.occursIn c then front = (wholeLines c).takeWhile (!rootLine.occursIn ·)
        else ∃ start opening rest, opener.first? c = some (start, opening, rest)
          ∧ front.flatten = start ++ opening.text := by
  rw [occursIn_rootLine_eq]
  rcases insertRoot_cases action c with ⟨hnone, hinsert⟩ | ⟨front, root, back, hlines, hfront, hroot, hcases⟩
  · rw [hinsert] at h
    obtain ⟨front, back, hnormal, hopens⟩ := insertRoot_of_none haction hnone h
    refine ⟨front, back, hnormal, ?_⟩
    rw [if_neg (by simpa using hnone)]
    exact hopens
  · have hinsert := hcases.resolve_left fun hsame => by
      rw [hsame.2.2] at h
      cases h
    rw [hinsert] at h
    cases h
    obtain ⟨hnormal, hplace⟩ := normalized_of_root haction hlines hfront hroot
    refine ⟨front, _, hnormal, ?_⟩
    rw [if_pos (by simp [hlines, hroot])]
    exact hplace

/-- Where nothing is to be done the file has the root line, and no other. -/
theorem insertRoot_eq_none {c : Text} (h : insertRoot action c = .ok none) :
    ∃ hit, rootLine.hits c = [hit] ∧ Text.trim hit.text = rootDeclaration action := by
  rcases insertRoot_cases action c with ⟨-, hinsert⟩ | ⟨front, root, back, hlines, hfront, hroot, hcases⟩
  · rw [hinsert] at h
    cases hline : insertLine (rootDeclaration action) c with
    | ok _ | error _ =>
        rw [hline] at h
        cases h
  · rcases hcases with ⟨hback, hsame, -⟩ | hinsert
    · exact ⟨⟨root, []⟩, hits_rootLine_of_lines hlines hroot hfront hback, hsame⟩
    · rw [hinsert] at h
      cases h

/-- Whatever it finds, an insertion leaves the file with the root line, and no other. -/
theorem hits_of_insertRoot {c : Text} {patched : Option Text} (haction : '\n' ∉ action)
    (h : insertRoot action c = .ok patched) :
    ∃ hit, rootLine.hits (patched.getD c) = [hit] ∧ Text.trim hit.text = rootDeclaration action := by
  cases patched with
  | none => exact insertRoot_eq_none h
  | some u =>
      obtain ⟨front, back, hnormal, -⟩ := insertRoot_eq_some haction h
      obtain ⟨hfront, hback⟩ := hnormal.not_root
      obtain ⟨hhits, -⟩ := of_wholeLines_eq haction hnormal.lines hfront hback
      exact ⟨_, hhits, trim_rootDeclaration action⟩

/-- An insertion is refused where there is no root line and no line that opens the block. -/
theorem insertRoot_eq_error {c : Text} {refusal : Refusal} (h : insertRoot action c = .error refusal) :
    rootLine.hits c = [] ∧ opener.occursIn c = false := by
  rcases insertRoot_cases action c with ⟨hnone, hinsert⟩ | ⟨front, root, back, hlines, hfront, hroot, hcases⟩
  · rw [hinsert] at h
    constructor
    · rw [hits_rootLine_eq, List.filter_eq_nil_iff.2 fun l hl => by simp [hnone l hl]]
      rfl
    · unfold insertLine at h
      unfold occursIn
      cases hfirst : opener.first? c with
      | none => rfl
      | some found =>
          rw [hfirst] at h
          cases h
  · rcases hcases with ⟨-, -, hinsert⟩ | hinsert
    · rw [hinsert] at h
      cases h
    · rw [hinsert] at h
      cases h

/-- Insertion of the root route leaves any file with one root line, the new one. The other lines
stay as they are and in their order; the new one stands where the first root line stood, or right
behind the first line that opens the block of routes if there was none; a second insertion has
nothing to do. Nothing is to be done only where the file has that root line and no other, and it
is refused only where the file has neither a root line nor a line that opens the block. -/
theorem insertRoot_normalizes (haction : '\n' ∉ action) (c : Text) :
    (∀ u, (Fragment.rootRoute action).insert c = .ok (some u) →
        (∃ hit, rootLine.hits u = [hit] ∧ Text.trim hit.text = rootDeclaration action
          ∧ ∃ front back, wholeLines u = front ++ hit.text :: back
            ∧ front ++ back = (wholeLines c).filter (!rootLine.occursIn ·)
            ∧ if rootLine.occursIn c then front = (wholeLines c).takeWhile (!rootLine.occursIn ·)
              else ∃ start opening rest, opener.first? c = some (start, opening, rest)
                ∧ front.flatten = start ++ opening.text)
          ∧ (Fragment.rootRoute action).insert u = .ok none)
      ∧ ((Fragment.rootRoute action).insert c = .ok none →
        ∃ hit, rootLine.hits c = [hit] ∧ Text.trim hit.text = rootDeclaration action)
      ∧ ∀ refusal, (Fragment.rootRoute action).insert c = .error refusal →
        rootLine.hits c = [] ∧ opener.occursIn c = false := by
  refine ⟨fun u hu => ?_, fun hnone => insertRoot_eq_none hnone, fun refusal herror => insertRoot_eq_error herror⟩
  obtain ⟨front, back, hnormal, hplace⟩ := insertRoot_eq_some haction hu
  obtain ⟨hfront, hback⟩ := hnormal.not_root
  obtain ⟨hhits, hagain⟩ := of_wholeLines_eq haction hnormal.lines hfront hback
  exact ⟨⟨_, hhits, trim_rootDeclaration action, front, back, hnormal.lines, hnormal.others, hplace⟩, hagain⟩

/-- Three root lines, one of them right behind another and one without a newline at the end of the
file, and a line that only starts like one. -/
theorem insertRoot_normalizes_thrice :
    (Fragment.rootRoute "index").insert "\troot to: 1\r\n  root \"home#about\"\n  roots\n root"
        = .ok (some "  root \"home#index\"\n  roots\n")
      ∧ (Fragment.rootRoute "index").insert "  root \"home#index\"\n  roots\n" = .ok none := by
  have hinsert : (Fragment.rootRoute "index").insert "\troot to: 1\r\n  root \"home#about\"\n  roots\n root"
      = .ok (some "  root \"home#index\"\n  roots\n") := by
    decide +kernel
  exact ⟨hinsert, ((insertRoot_normalizes (by decide) _).1 _ hinsert).2⟩

end SiteScaffold.Patch.Route

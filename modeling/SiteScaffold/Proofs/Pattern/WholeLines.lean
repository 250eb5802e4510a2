/-
Replacing that leaves lines whole. A pattern whose matches are whole lines takes lines away
and touches no other: what is left of a text are some of its lines (`delete_sublist`), and
no line that is a match wherever it stands is among them (`notMem_wholeLines_delete`).

Lines are counted from the front and a replacement goes from the front, too, so both are
one induction over what the replacement makes of the text. It is about the place within a
line, told by what stands before it there.
-/
import SiteScaffold.Proofs.Pattern.Lines

namespace SiteScaffold.Pattern

open Text (EndsLine FirstLine wholeLines)

variable {p : Pattern} {write : Hit → Text} {before start : Option Char} {a t u new line : Text}

/-- The start of a line is where no character of the line stands before. -/
theorem eq_nil_of_onNewLine (ha : '\n' ∉ a) (h : OnNewLine (lastAfter start a)) : a = [] := by
  rcases List.eq_nil_or_concat' a with hnil | ⟨s, c, rfl⟩
  · exact hnil
  · rw [lastAfter_concat] at h
    refine absurd h (not_onNewLine ?_)
    rintro rfl
    simp at ha

/-- A pattern that starts at the start of lines only starts at the front of a line or nowhere
in it, whether the line has its newline or not. -/
theorem clear_firstLine (hp : ∀ before s, p.StartsAt before s → OnNewLine before) {rest : Text}
    (hfirst : FirstLine line rest) (h : ¬ p.StartsAt before (line ++ rest)) : p.Clear before line rest := by
  refine clear_iff.2 fun u v hline hne hstart => h ?_
  rw [hline] at hfirst
  obtain rfl := eq_nil_of_onNewLine (hfirst.newline_notMem hne) (hp _ _ hstart)
  obtain rfl : line = v := hline
  exact hstart

/-- Nothing is made of nothing. -/
theorem Rewritten.eq_nil (h : Rewritten p write before [] new) : new = [] := by
  generalize hnil : [] = t at h
  cases h with
  | nil => rfl
  | plain _ c t new hhere htail => cases hnil
  | hit _ h t new hne hhere htail => exact absurd (List.append_eq_nil_iff.1 hnil.symm).1 hne

/-- Whether the lines of a text after a replacement are some of the lines before, seen from
the start of the line that the match is on. At the end of the text a line may go that has
no newline. -/
structure KeepsLines (p : Pattern) (write : Hit → Text) : Prop where
  hit : ∀ start a hit rest, OnNewLine start → '\n' ∉ a →
    p.matchAt ⟨lastAfter start a, hit.text ++ rest⟩ = some hit →
    (EndsLine (a ++ hit.text) ∧ EndsLine (a ++ write hit)
        ∧ (wholeLines (a ++ write hit)).Sublist (wholeLines (a ++ hit.text)))
      ∨ rest = [] ∧ a ++ write hit = []

/-- Where lines are kept, the lines of what a replacement makes of a text are some of its
lines. -/
theorem Rewritten.sublist (hkeeps : KeepsLines p write) (h : Rewritten p write before t new)
    (hstart : OnNewLine start) (ha : '\n' ∉ a) (hbefore : before = lastAfter start a) :
    (wholeLines (a ++ new)).Sublist (wholeLines (a ++ t)) := by
  induction h generalizing a start with
  | nil => exact .refl _
  | plain before c t new hhere htail ih =>
      rw [List.append_cons a c new, List.append_cons a c t]
      by_cases hc : c = '\n'
      · -- the line ends here
        rw [hc, Text.wholeLines_append Text.endsLine_newline, Text.wholeLines_append Text.endsLine_newline]
        exact .append (.refl _) (ih (a := []) onNewLine_newline (by simp) (by rw [hc]; rfl))
      · refine ih hstart ?_ (lastAfter_concat start a c).symm
        rw [List.mem_append, not_or]
        exact ⟨ha, by simpa using Ne.symm hc⟩
  | hit before h t new hne hhere htail ih =>
      rw [hbefore] at hhere
      rcases hkeeps.hit start a h t hstart ha hhere with ⟨hold, hnew, hsublist⟩ | ⟨rfl, hnil⟩
      · rw [← List.append_assoc, ← List.append_assoc, Text.wholeLines_append hnew,
          Text.wholeLines_append hold]
        refine .append hsublist (ih (a := []) (onNewLine_lastAfter hold hstart) (by simp) ?_)
        rw [hbefore, lastAfter_append, lastAfter_nil]
      · rw [htail.eq_nil, List.append_nil, hnil]
        exact List.nil_sublist _

theorem KeepsLines.rewrite_sublist (hkeeps : KeepsLines p write)
    (hne : ∀ before t h, p.matchAt ⟨before, t⟩ = some h → h.text ≠ []) (t : Text) :
    (wholeLines (p.rewrite write t)).Sublist (wholeLines t) :=
  (rewritten_rewrite hne write t).sublist hkeeps (a := []) onNewLine_none (by simp) rfl

-- ================================================================= searching line by line

/-- The piece or the pieces that a line is: one if the line is a match, else its characters. -/
def linePieces (isHit : Text → Bool) (line : Text) : List Piece :=
  if isHit line then [.hit ⟨line, []⟩] else line.map .plain

/-- Where each line is a match or has none that starts in it, the lines tell the pieces. -/
theorem pieces_eq_flatMap {isHit : Text → Bool} (hfree : p.captureFree)
    (hhit : ∀ before line rest, OnNewLine before → FirstLine line rest → isHit line = true →
      ∃ hit, p.matchAt ⟨before, line ++ rest⟩ = some hit ∧ hit.text = line)
    (hclear : ∀ before line rest, OnNewLine before → FirstLine line rest → isHit line = false →
      p.Clear before line rest) (t : Text) :
    p.pieces t = (wholeLines t).flatMap (linePieces isHit) := by
  rw [pieces_eq]
  have hbefore := onNewLine_none
  generalize none = before at hbefore
  induction hlen : t.length using Nat.strongRecOn generalizing before t with
  | ind n ih =>
      by_cases hnil : t = []
      · rw [hnil]
        rfl
      obtain ⟨line, rest, rfl, hfirst⟩ := Text.exists_firstLine hnil
      have hne : line ≠ [] := Text.ne_nil_of_mem_wholeLines (t := line ++ rest) (by rw [hfirst]; simp)
      have hpos := List.length_pos_iff.2 hne
      rw [List.length_append] at hlen
      have htail : p.piecesFrom 0 (lastAfter before line) rest = (wholeLines rest).flatMap (linePieces isHit) := by
        rcases hfirst.cases with ⟨s, rfl, -⟩ | ⟨-, rfl⟩
        · exact ih rest.length (by omega) rest _ (onNewLine_lastAfter Text.endsLine_newline hbefore) rfl
        · rfl
      rw [hfirst, List.flatMap_cons, ← htail]
      cases hline : isHit line with
      | false =>
          rw [piecesFrom_of_clear (hclear _ _ _ hbefore hfirst hline), linePieces, hline]
          rfl
      | true =>
          obtain ⟨hit, hmatch, htext⟩ := hhit _ _ _ hbefore hfirst hline
          obtain ⟨_, -, haccepts⟩ := matchAt_sound hmatch
          have hkept : hit = ⟨line, []⟩ := by
            rw [← htext, ← eq_nil_of_accepts hfree haccepts]
          rw [piecesFrom_of_hit hmatch htext hne, linePieces, hline, hkept]
          rfl

/-- The matches are then the lines that are one. -/
theorem filterMap_linePieces (isHit : Text → Bool) (lines : List Text) :
    (lines.flatMap (linePieces isHit)).filterMap Piece.hit? = (lines.filter isHit).map fun line => ⟨line, []⟩ := by
  induction lines with
  | nil => rfl
  | cons line lines ih =>
      rw [List.flatMap_cons, List.filterMap_append, ih, linePieces]
      cases hline : isHit line with
      | true =>
          rw [List.filter_cons_of_pos hline]
          rfl
      | false =>
          have hplain : (line.map Piece.plain).filterMap Piece.hit? = [] := by
            rw [List.filterMap_map]
            exact List.filterMap_eq_nil_iff.2 fun _ _ => rfl
          rw [List.filter_cons_of_neg (by simp [hline]), if_neg Bool.false_ne_true, hplain, List.nil_append]

/-- Without the matches the other lines are left. -/
theorem flatMap_write_linePieces (isHit : Text → Bool) (lines : List Text) :
    (lines.flatMap (linePieces isHit)).flatMap (Piece.write fun _ => []) = (lines.filter (!isHit ·)).flatten := by
  induction lines with
  | nil => rfl
  | cons line lines ih =>
      rw [List.flatMap_cons, List.flatMap_append, ih, linePieces]
      cases hline : isHit line with
      | true =>
          rw [List.filter_cons_of_neg (by simp [hline])]
          rfl
      | false =>
          rw [List.filter_cons_of_pos (by simp [hline]), if_neg Bool.false_ne_true, List.flatMap_map,
            List.flatten_cons]
          exact congrArg (· ++ _) (List.flatMap_singleton' line)

-- ===================================================== patterns that match whole lines

/-- Whether the matches of a pattern are whole lines; at the end of the text the last one
may lack its newline. -/
structure MatchesLines (p : Pattern) : Prop where
  start : ∀ before u rest, p.Matches before u rest → OnNewLine before
  stop : ∀ before u rest, p.Matches before u rest → (∃ s, u = s ++ ['\n']) ∨ u ≠ [] ∧ rest = []

namespace MatchesLines

theorem ne_nil (hp : p.MatchesLines) {rest : Text} (h : p.Matches before u rest) : u ≠ [] := by
  rcases hp.stop before u rest h with ⟨s, rfl⟩ | ⟨hne, -⟩
  · simp
  · exact hne

theorem hit_ne_nil (hp : p.MatchesLines) {hit : Hit} (h : p.matchAt ⟨before, t⟩ = some hit) :
    hit.text ≠ [] := by
  obtain ⟨rest, -, haccepts⟩ := matchAt_sound h
  exact hp.ne_nil ⟨_, haccepts⟩

/-- A match is at the start of its line. -/
theorem of_matchAt (hp : p.MatchesLines) {hit : Hit} {rest : Text} (ha : '\n' ∉ a)
    (h : p.matchAt ⟨lastAfter start a, hit.text ++ rest⟩ = some hit) :
    a = [] ∧ ((∃ s, hit.text = s ++ ['\n']) ∨ rest = []) := by
  obtain ⟨rest', heq, haccepts⟩ := matchAt_sound h
  obtain rfl := List.append_cancel_left heq
  refine ⟨eq_nil_of_onNewLine ha (hp.start _ _ _ ⟨_, haccepts⟩), ?_⟩
  exact (hp.stop _ _ _ ⟨_, haccepts⟩).imp_right And.right

theorem keepsLines (hp : p.MatchesLines) : KeepsLines p fun _ => [] where
  hit := by
    intro start a hit rest _ ha h
    obtain ⟨rfl, ⟨s, hs⟩ | hrest⟩ := hp.of_matchAt ha h
    · refine .inl ⟨?_, .inl rfl, List.nil_sublist _⟩
      rw [hs]
      exact Text.endsLine_newline
    · exact .inr ⟨hrest, rfl⟩

theorem delete_sublist (hp : p.MatchesLines) (t : Text) :
    (wholeLines (p.delete t)).Sublist (wholeLines t) :=
  hp.keepsLines.rewrite_sublist (fun _ _ _ => hp.hit_ne_nil) t

/-- The lines behind what is rewritten are some of those that were behind it. -/
theorem sublist_behind (hp : p.MatchesLines) (h : Rewritten p (fun _ => []) before t new)
    (hbefore : OnNewLine before) : (wholeLines new).Sublist (wholeLines t) :=
  h.sublist hp.keepsLines (a := []) hbefore (by simp) rfl

/-- Of the lines from a place on that is within no match none is left at which a match would
start, seen with the lines behind it. -/
theorem not_starts (hp : p.MatchesLines) (Starts : Text → List Text → Prop)
    (hmono : ∀ line back back', back.Sublist back' → Starts line back → Starts line back')
    (hline : ∀ start line rest, OnNewLine start → FirstLine line rest → Starts line (wholeLines rest) →
      p.StartsAt start (line ++ rest))
    (h : Rewritten p (fun _ => []) before t new) (hstart : OnNewLine start) (ha : '\n' ∉ a)
    (hbefore : before = lastAfter start a) (hclear : a ≠ [] → ¬ p.StartsAt start (a ++ t)) :
    ∀ front line back, wholeLines (a ++ new) = front ++ line :: back → ¬ Starts line back := by
  induction h generalizing a start with
  | nil =>
      intro front line back hlines hstarts
      rw [List.append_nil] at hclear hlines
      have hnil : a ≠ [] := by
        rintro rfl
        exact absurd hlines.symm (by simp [wholeLines])
      rw [Text.wholeLines_of_notMem ha hnil] at hlines
      obtain ⟨rfl, hone⟩ := List.append_eq_singleton_iff.1 hlines.symm |>.resolve_right (by simp)
      obtain ⟨rfl, rfl⟩ := List.cons_eq_cons.1 hone
      have hhere := hline start line [] hstart (Text.firstLine_last ha hnil) hstarts
      rw [List.append_nil] at hhere
      exact hclear hnil hhere
  | plain before c t new hhere htail ih =>
      have hnone : ¬ p.StartsAt start (a ++ c :: t) := by
        by_cases hnil : a = []
        · rw [hnil, List.nil_append]
          rw [hbefore, hnil, lastAfter_nil] at hhere
          exact matchAt_eq_none_iff_not_startsAt.1 hhere
        · exact hclear hnil
      rw [List.append_cons a c new]
      rw [List.append_cons a c t] at hnone
      by_cases hc : c = '\n'
      · subst hc
        have hbehind := hp.sublist_behind htail onNewLine_newline
        intro front line back hlines hstarts
        rw [Text.firstLine_newline ha new] at hlines
        cases front with
        | nil =>
            obtain ⟨rfl, rfl⟩ := List.cons_eq_cons.1 hlines
            exact hnone (hline start _ t hstart (Text.firstLine_newline ha t) (hmono _ _ _ hbehind hstarts))
        | cons first front =>
            obtain ⟨-, hlines⟩ := List.cons_eq_cons.1 hlines
            exact ih (a := []) onNewLine_newline (by simp) rfl (fun h => absurd rfl h) front line back hlines hstarts
      · refine ih hstart ?_ (lastAfter_concat start a c).symm fun _ => hnone
        rw [List.mem_append, not_or]
        exact ⟨ha, by simpa using Ne.symm hc⟩
  | hit before h t new hne hhere htail ih =>
      rw [hbefore] at hhere
      obtain ⟨rfl, hstop⟩ := hp.of_matchAt ha hhere
      rcases hstop with ⟨s, hs⟩ | rfl
      · refine ih (a := []) ?_ (by simp) rfl fun h => absurd rfl h
        rw [hs, lastAfter_concat]
        exact onNewLine_newline
      · rw [htail.eq_nil]
        intro front line back hlines
        exact absurd hlines.symm (by simp [wholeLines])

theorem notMem_wholeLines_delete (hp : p.MatchesLines)
    (hline : ∀ start rest, OnNewLine start → p.StartsAt start (line ++ rest)) (t : Text) :
    line ∉ wholeLines (p.delete t) := by
  intro hmem
  obtain ⟨front, back, hlines⟩ := List.append_of_mem hmem
  refine hp.not_starts (fun other _ => other = line) (fun _ _ _ _ h => h) ?_
    (rewritten_rewrite (fun _ _ _ => hp.hit_ne_nil) _ t) (a := []) onNewLine_none (by simp) rfl
    (fun h => absurd rfl h) front line back hlines rfl
  rintro start _ rest hstart - rfl
  exact hline start rest hstart

end MatchesLines

/-- A line at which a match starts wherever it stands is found. -/
theorem occursIn_of_mem_wholeLines (hline : ∀ start rest, OnNewLine start → p.StartsAt start (line ++ rest))
    (hmem : line ∈ wholeLines t) : p.occursIn t = true := by
  obtain ⟨front, back, rfl, hfront, hne⟩ := Text.exists_of_mem_wholeLines hmem
  refine occursIn_of_startsAt (hline _ back (onNewLine_lastAfter hfront onNewLine_none)) ?_
  simp [hne]

-- ========================================================== patterns told by the lines

theorem endsLine_of_onNewLine (h : OnNewLine (lastAfter before t)) : EndsLine t := by
  rcases List.eq_nil_or_concat' t with hnil | ⟨s, c, rfl⟩
  · exact .inl hnil
  · rw [lastAfter_concat] at h
    by_cases hc : c = '\n'
    · rw [hc]
      exact Text.endsLine_newline
    · exact absurd h (not_onNewLine hc)

/-- Whether a pattern starts at the start of lines, and at those that `Starts` tells of by what
the line holds and which lines are behind it. It tells of no fewer when there are more. -/
structure TellsLines (p : Pattern) (Starts : Text → List Text → Prop) : Prop where
  start : ∀ before t, p.StartsAt before t → OnNewLine before
  line : ∀ before line rest, OnNewLine before → FirstLine line rest →
    (p.StartsAt before (line ++ rest) ↔ Starts line (wholeLines rest))
  behind : ∀ line back back', back.Sublist back' → Starts line back → Starts line back'

namespace TellsLines

variable {Starts : Text → List Text → Prop} (hp : p.TellsLines Starts)

include hp

theorem occursIn_iff : p.occursIn t = true ↔ ∃ front line back, wholeLines t = front ++ line :: back ∧ Starts line back := by
  constructor
  · intro h
    obtain ⟨u, v, rfl, hne, hstarts⟩ := exists_startsAt h
    have hbefore := hp.start _ _ hstarts
    obtain ⟨line, rest, rfl, hfirst⟩ := Text.exists_firstLine hne
    refine ⟨wholeLines u, line, wholeLines rest, ?_, (hp.line _ _ _ hbefore hfirst).1 hstarts⟩
    rw [Text.wholeLines_append (endsLine_of_onNewLine hbefore), hfirst]
  · rintro ⟨front, line, back, hlines, hstarts⟩
    have hne : line ≠ [] := Text.ne_nil_of_mem_wholeLines (by rw [hlines]; simp)
    obtain ⟨u, rest, rfl, hu, hfirst, rfl⟩ := Text.exists_of_wholeLines_eq hlines
    exact occursIn_of_startsAt ((hp.line _ _ _ (onNewLine_lastAfter hu onNewLine_none) hfirst).2 hstarts) (by simp [hne])

/-- What is found in some of the lines is found in all of them. -/
theorem occursIn_of_sublist (hsub : (wholeLines t).Sublist (wholeLines u)) (h : p.occursIn t = true) :
    p.occursIn u = true := by
  obtain ⟨front, line, back, hlines, hstarts⟩ := hp.occursIn_iff.1 h
  rw [hlines] at hsub
  obtain ⟨before, after, hcut, hmem, hback⟩ := List.cons_sublist_iff.1 ((List.sublist_append_right ..).trans hsub)
  obtain ⟨first, second, rfl⟩ := List.append_of_mem hmem
  refine hp.occursIn_iff.2 ⟨first, line, second ++ after, ?_, hp.behind _ _ _ ?_ hstarts⟩
  · rw [hcut, List.append_assoc, List.cons_append]
  · exact hback.trans (List.sublist_append_right ..)

/-- Where whole lines are matched, none is found any more once the matches are deleted. -/
theorem occursIn_delete (hlines : p.MatchesLines) (t : Text) : p.occursIn (p.delete t) = false := by
  rw [Bool.eq_false_iff]
  intro h
  obtain ⟨front, line, back, hcut, hstarts⟩ := hp.occursIn_iff.1 h
  exact hlines.not_starts Starts hp.behind (fun before line rest hbefore hfirst => (hp.line before line rest hbefore hfirst).2)
    (rewritten_rewrite (fun _ _ _ => hlines.hit_ne_nil) _ t) (a := []) onNewLine_none (by simp) rfl
    (fun h => absurd rfl h) front line back hcut hstarts

end TellsLines

-- ===================================================================== ends of matches

/-- The end of a line, and the empty line behind it if there is one, end in a newline or at
the end of the text. -/
theorem of_matches_lineBreakAndBlank {rest : Text} (h : lineBreakAndBlank.Matches before u rest) :
    (∃ s, u = s ++ ['\n']) ∨ u = [] ∧ rest = [] := by
  rcases matches_or.1 h with h | h
  · obtain ⟨v, w, rfl, hbreak, hblank⟩ := matches_append.1 h
    obtain rfl := matches_literal.1 hbreak
    refine .inl ?_
    rcases matches_optional.1 hblank with h | rfl
    · obtain ⟨x, y, rfl, -, hnewline⟩ := matches_append.1 h
      rcases matches_newline.1 hnewline with rfl | rfl
      · exact ⟨['\n'] ++ (x ++ ['\r']), by simp⟩
      · exact ⟨['\n'] ++ x, by simp⟩
    · exact ⟨[], rfl⟩
  · exact .inr (matches_textEnd.1 h)

/-- So does the end of a line alone. -/
theorem of_matches_lineBreak {rest : Text} (h : lineBreak.Matches before u rest) :
    (∃ s, u = s ++ ['\n']) ∨ u = [] ∧ rest = [] := by
  rcases matches_or.1 h with h | h
  · exact .inl ⟨[], matches_literal.1 h⟩
  · exact .inr (matches_textEnd.1 h)

/-- A pattern that starts at the start of a line, with something there, and goes on to the
end of one matches whole lines. -/
theorem matchesLines_append {q : Pattern}
    (hfirst : ∀ before u rest, p.Matches before u rest → OnNewLine before ∧ u ≠ [])
    (hlast : ∀ before u rest, q.Matches before u rest → (∃ s, u = s ++ ['\n']) ∨ u = [] ∧ rest = []) :
    (p ++ q).MatchesLines where
  start := by
    intro before u rest h
    obtain ⟨v, w, rfl, hp, -⟩ := matches_append.1 h
    exact (hfirst _ _ _ hp).1
  stop := by
    intro before u rest h
    obtain ⟨v, w, rfl, hp, hq⟩ := matches_append.1 h
    rcases hlast _ _ _ hq with ⟨s, rfl⟩ | ⟨rfl, rfl⟩
    · exact .inl ⟨v ++ s, (List.append_assoc ..).symm⟩
    · refine .inr ⟨?_, rfl⟩
      rw [List.append_nil]
      exact (hfirst _ _ _ hp).2

end SiteScaffold.Pattern

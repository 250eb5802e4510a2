/-
When a layout counts as declared, and when there is a directive for it to take out. A declaration
is looked for anywhere in a controller (`occursIn_declaration`), a directive only at the front of
a line (`occursIn_directiveLine`). What is taken out was therefore in the way of an insertion
(`insert_of_isSome_remove`), but not all that is in the way is taken out: a layout may be
mentioned further on in a line.

Where a controller mentions the layout at the front of lines only, the two agree
(`declared_iff_removed`). To see that a removal clears the way, what is left is looked at line by
line. Its lines are lines of the controller, so they mention the layout at the front, and such a line
would have been taken out. A mention that goes over several lines is one that a line ends in the
keyword of, which is why such lines are set aside: taking out the line behind would complete it.
-/
import SiteScaffold.Proofs.Patch.DirectiveEdits
import SiteScaffold.Proofs.Patch.Presence

namespace SiteScaffold.Patch.LayoutDirective

open Pattern
open Text (EndsLine FirstLine wholeLines)

variable {layout view hostClass left s t u m rest : Text} {before : Option Char}

-- ======================================================================== being found

/-- A line that declares the layout is told by its front. -/
theorem startsAt_directiveLine : (directiveLine layout).StartsAt before t ↔
    OnNewLine before ∧ Indented (Keyed "layout".toList layout) t := by
  unfold directiveLine
  rw [startsAt_restOfLineAndBlank, startsAt_append]
  constructor
  · rintro ⟨_, s, rfl, hfront, hdeclaration⟩
    obtain ⟨_, a, rfl, hline, ha⟩ := matches_append.1 hfront
    obtain ⟨rfl, hbefore⟩ := matches_lineStart.1 hline
    exact ⟨hbefore, a, s, rfl, matches_spacing.1 ha, startsAt_declaration.1 hdeclaration⟩
  · rintro ⟨hbefore, a, s, rfl, ha, hkeyed⟩
    have hfront : (lineStart ++ spacing).Matches before ([] ++ a) s :=
      matches_append.2 ⟨[], a, rfl, matches_lineStart.2 ⟨rfl, hbefore⟩, matches_spacing.2 ha⟩
    exact ⟨[] ++ a, s, rfl, hfront, startsAt_declaration.2 hkeyed⟩

/-- A layout is declared where it is mentioned with the keyword, at whatever place. -/
theorem occursIn_declaration : (declaration layout).occursIn t = true ↔
    ∃ u m, t = u ++ m ∧ Keyed "layout".toList layout m := occursIn_keyed

/-- Whether nothing but spaces and tabs is in front of a place on its line. -/
def AtFront (u : Text) : Prop := ∃ x a, u = x ++ a ∧ EndsLine x ∧ ∀ c ∈ a, isSpacing c

theorem atFront_iff : AtFront u ↔ (u.reverse.dropWhile isSpacing).head?.all (· = '\n') := by
  constructor
  · rintro ⟨x, a, rfl, hx, ha⟩
    rw [List.reverse_append, List.dropWhile_append_of_pos fun c hc => ha c (List.mem_reverse.1 hc)]
    rcases hx with rfl | ⟨s, rfl⟩
    · rfl
    · rw [List.reverse_concat]
      rfl
  · intro h
    refine ⟨(u.reverse.dropWhile isSpacing).reverse, (u.reverse.takeWhile isSpacing).reverse, ?_, ?_, ?_⟩
    · rw [← List.reverse_append, List.takeWhile_append_dropWhile, List.reverse_reverse]
    · cases hback : u.reverse.dropWhile isSpacing with
      | nil => exact .inl rfl
      | cons c r =>
          obtain rfl : c = '\n' := by simpa [hback] using h
          exact .inr ⟨r.reverse, List.reverse_cons ..⟩
    · exact fun c hc => List.all_eq_true.1 List.all_takeWhile c (List.mem_reverse.1 hc)

instance (u : Text) : Decidable (AtFront u) := decidable_of_iff _ atFront_iff.symm

/-- There is a directive for a layout where it is mentioned at the front of a line. -/
theorem occursIn_directiveLine : (directiveLine layout).occursIn t = true ↔
    ∃ u m, t = u ++ m ∧ AtFront u ∧ Keyed "layout".toList layout m := by
  constructor
  · intro h
    obtain ⟨x, _, rfl, -, hstarts⟩ := exists_startsAt h
    obtain ⟨hbefore, a, m, rfl, ha, hkeyed⟩ := startsAt_directiveLine.1 hstarts
    exact ⟨x ++ a, m, by simp, ⟨x, a, rfl, endsLine_of_onNewLine hbefore, ha⟩, hkeyed⟩
  · rintro ⟨_, m, rfl, ⟨x, a, rfl, hx, ha⟩, hkeyed⟩
    have hbefore := onNewLine_lastAfter hx onNewLine_none
    rw [List.append_assoc]
    exact occursIn_of_startsAt (startsAt_directiveLine.2 ⟨hbefore, a, m, rfl, ha, hkeyed⟩)
      (by simp [hkeyed.not_nil])

theorem insert_eq_declared_iff :
    insert layout view hostClass t = .error (.declared layout) ↔ (declaration layout).occursIn t = true :=
  ⟨insert_eq_declared, fun h => by rw [insert, if_pos h]⟩

theorem isSome_remove : (remove layout t).isSome = (directiveLine layout).occursIn t := by
  unfold remove
  split
  next h => rw [h]; rfl
  next h => rw [Bool.eq_false_iff.2 h]; rfl

/-- A directive that can be taken out is in the way of another one. -/
theorem insert_of_isSome_remove (h : (remove layout t).isSome) :
    insert layout view hostClass t = .error (.declared layout) := by
  rw [isSome_remove] at h
  obtain ⟨u, m, htext, -, hkeyed⟩ := occursIn_directiveLine.1 h
  exact insert_eq_declared_iff.2 (occursIn_declaration.2 ⟨u, m, htext, hkeyed⟩)

-- ==================================================================== at the front of lines

/-- Whether a controller mentions a layout at the front of lines only. -/
def FrontOnly (layout t : Text) : Prop := ∀ u m, t = u ++ m → Keyed "layout".toList layout m → AtFront u

instance (layout m : Text) : Decidable (Keyed "layout".toList layout m) :=
  decidable_of_iff ((declaration layout).matchAt ⟨none, m⟩ ≠ none)
    ((not_congr matchAt_eq_none_iff_not_startsAt).trans (not_not.trans startsAt_declaration))

instance (layout t : Text) : Decidable (FrontOnly layout t) :=
  decidable_of_iff _ (Text.forall_split_iff (P := fun u m => Keyed "layout".toList layout m → AtFront u)).symm

/-- Whether no line of a controller ends in the keyword of a directive. -/
def NoneOpen (t : Text) : Prop :=
  ∀ l ∈ wholeLines t, ∀ a g, l = a ++ ("layout".toList ++ g) → ¬ ∀ c ∈ g, Text.isBlank c

/-- What is in front of a place on its line is white space if the place is at the front. -/
theorem AtFront.isSpacing {a : Text} (h : AtFront (u ++ a)) (ha : '\n' ∉ a) : ∀ c ∈ a, isSpacing c := by
  obtain ⟨x, b, heq, hx, hb⟩ := h
  rcases List.append_eq_append_iff.1 heq with ⟨z, rfl, rfl⟩ | ⟨z, rfl, rfl⟩
  · by_cases hz : z = []
    · rw [hz]
      exact hb
    · obtain ⟨r, rfl⟩ := hx.of_append hz
      exact absurd (by simp) ha
  · exact fun c hc => hb c (List.mem_append_right _ hc)

theorem noneOpen_iff : NoneOpen t ↔ ∀ l ∈ wholeLines t, ∀ n ∈ List.range (l.length + 1),
    ∀ g ∈ Text.after? "layout".toList (l.drop n), ¬ ∀ c ∈ g, Text.isBlank c := by
  refine forall_congr' fun l => imp_congr_right fun _ => ?_
  rw [← Text.forall_split_iff (P := fun _ r => ∀ g ∈ Text.after? "layout".toList r, ¬ ∀ c ∈ g, Text.isBlank c)]
  constructor
  · rintro h a r rfl g hg
    exact h a g (by rw [Text.after?_eq_some_iff.1 hg])
  · rintro h a g rfl
    exact h a _ rfl g (Text.after?_eq_some_iff.2 rfl)

instance (t : Text) : Decidable (NoneOpen t) := decidable_of_iff _ noneOpen_iff.symm

/-- A mention of the layout is on one line. -/
theorem exists_line_of_keyed (hlayout : Name.IsNormal layout) (hopen : NoneOpen (u ++ m))
    (hkeyed : Keyed "layout".toList layout m) :
    ∃ a n, a ++ n ∈ wholeLines (u ++ m) ∧ '\n' ∉ a ∧ Keyed "layout".toList layout n := by
  obtain ⟨c, m, rfl⟩ := List.exists_cons_of_ne_nil hkeyed.not_nil
  obtain ⟨front, a, b, back, rfl, rfl, hfront, hfirst⟩ := Text.exists_firstLine_of_append (c := c) u m
  have htext : front ++ a ++ c :: (b ++ back) = front ++ ((a ++ c :: b) ++ back) := by simp
  have hmem : a ++ c :: b ∈ wholeLines (front ++ a ++ c :: (b ++ back)) := by
    rw [htext, Text.wholeLines_append hfront, hfirst]
    simp
  refine ⟨a, c :: b, hmem, hfirst.newline_notMem (by simp), ?_⟩
  rw [← List.cons_append] at hkeyed
  rcases hfirst.cases with ⟨s, hline, -⟩ | ⟨-, rfl⟩
  · have hends : EndsLine (c :: b) :=
      .inr (EndsLine.of_append (s := a) (by rw [hline]; exact Text.endsLine_newline) (by simp))
    refine (hkeyed.within_or_open (by decide) (hlayout.notMem (by decide)) hends (by simp)).resolve_right ?_
    rintro ⟨⟨g, hkeyword, hg⟩, -⟩
    exact hopen _ hmem a g (by rw [hkeyword]) hg
  · rwa [List.append_nil] at hkeyed

/-- A removal leaves no mention of the layout. -/
theorem not_declared_of_remove (hlayout : Name.IsNormal layout) (hfront : FrontOnly layout t) (hopen : NoneOpen t)
    (hremove : remove layout t = some left) : (declaration layout).occursIn left = false := by
  have hlines := Directives.matchesLines_directiveLine layout
  obtain ⟨-, rfl⟩ := remove_eq_some_iff.1 hremove
  have hsub := hlines.delete_sublist t
  rw [Bool.eq_false_iff]
  intro hoccurs
  obtain ⟨u, m, htext, hkeyed⟩ := occursIn_declaration.1 hoccurs
  have hopen' : NoneOpen (u ++ m) := by
    rw [← htext]
    exact fun l hl => hopen l (hsub.subset hl)
  obtain ⟨a, n, hmem, ha, hkeyed⟩ := exists_line_of_keyed hlayout hopen' hkeyed
  rw [← htext] at hmem
  -- the line is one of the controller, where the mention is at its front
  obtain ⟨front, back, hcut, -, -⟩ := Text.exists_of_mem_wholeLines (hsub.subset hmem)
  have hspacing := (hfront (front ++ a) (n ++ back) (by rw [hcut]; simp) hkeyed.append).isSpacing ha
  refine hlines.notMem_wholeLines_delete (fun start rest hstart => ?_) t hmem
  exact startsAt_directiveLine.2 ⟨hstart, a, n ++ rest, List.append_assoc .., hspacing, hkeyed.append⟩

/-- Where a layout is mentioned at the front of lines only, it counts as declared exactly if there
is a directive to take out; and where no line ends in the keyword, another one can be put in once that is done. -/
theorem declared_iff_removed (hlayout : Name.IsNormal layout) (hfront : FrontOnly layout t) :
    (insert layout view hostClass t = .error (.declared layout) ↔ (remove layout t).isSome)
      ∧ (NoneOpen t → ∀ left, remove layout t = some left → remove layout left = none
        ∧ ∀ view hostClass, insert layout view hostClass left ≠ .error (.declared layout)) := by
  refine ⟨⟨fun hinsert => ?_, insert_of_isSome_remove⟩, fun hopen left hremove => ?_⟩
  · obtain ⟨u, m, htext, hkeyed⟩ := occursIn_declaration.1 (insert_eq_declared_iff.1 hinsert)
    rw [isSome_remove]
    exact occursIn_directiveLine.2 ⟨u, m, htext, hfront u m htext hkeyed, hkeyed⟩
  · have habsent := not_declared_of_remove hlayout hfront hopen hremove
    have hclear : ∀ view hostClass, insert layout view hostClass left ≠ .error (.declared layout) := by
      intro view hostClass hinsert
      rw [insert_eq_declared_iff.1 hinsert] at habsent
      cases habsent
    refine ⟨?_, hclear⟩
    rw [← Option.not_isSome_iff_eq_none]
    exact fun hsome => hclear [] [] (insert_of_isSome_remove hsome)

/-- A controller with a directive. -/
def shelved : Text := "class HomeController < ApplicationController\n  layout 'shelf', only: [:cart]\nend\n"

theorem declared_iff_removed_shelved : Name.IsNormal "shelf" ∧ FrontOnly "shelf" shelved ∧ NoneOpen shelved
    ∧ (insert "shelf" "cart" homeClass shelved = .error (.declared "shelf") ↔ (remove "shelf" shelved).isSome)
    ∧ ∃ left, remove "shelf" shelved = some left
      ∧ ∀ view hostClass, insert "shelf" view hostClass left ≠ .error (.declared "shelf") := by
  have hlayout : Name.IsNormal "shelf" := ⟨"shelf", by decide⟩
  have hfront : FrontOnly "shelf" shelved := by decide +kernel
  have hopen : NoneOpen shelved := by decide +kernel
  obtain ⟨hagree, hagain⟩ : (insert "shelf" "cart" homeClass shelved = .error (.declared "shelf")
      ↔ (remove "shelf" shelved).isSome) ∧ _ := declared_iff_removed hlayout hfront
  obtain ⟨left, hleft⟩ := Option.isSome_iff_exists.1 (by decide +kernel : (remove "shelf" shelved).isSome)
  exact ⟨hlayout, hfront, hopen, hagree, left, hleft, (hagain hopen left hleft).2⟩

/-- A controller with a comment on a layout. -/
def commented : Text := "# layout \"a\"\nclass HomeController < ApplicationController\nend\n"

/-- A comment is in the way of a directive, and there is none to take out. -/
theorem declared_by_comment :
    ¬ (insert "a" "b" homeClass commented = .error (.declared "a") ↔ (remove "a" commented).isSome) := by
  decide +kernel

end SiteScaffold.Patch.LayoutDirective

/-
What becomes of the directives of a text. A text in which every declaration of a layout is a
directive stays one, whatever else becomes of it:

- an action and a route are put in, which declare nothing (`Declares.insertAction`,
  `Declares.insertRoute`), and a directive at the start of a line (`Declares.insert`);
- what an action, a route or a directive leaves when it is taken out are some of the lines,
  in one case with empty lines fewer (`Declares.removeAction`, `Declares.removeRoute`,
  `Declares.remove`).

So nobody gets a second directive but by a directive that is put in, and that is refused if its
layout has one (`Paired.insert`).
-/
import SiteScaffold.Proofs.Patch.ControllerAction
import SiteScaffold.Proofs.Patch.Directives
import SiteScaffold.Proofs.Patch.Route

namespace SiteScaffold.Patch.Directives

open Pattern
open Text (EndsLine wholeLines)

variable {d : Text × Text} {ds : List (Text × Text)} {layout view name s t t' rest : Text}
  {before : Option Char}

-- ======================================================== the line of a route

/-- A quotation mark is the first one of a text or stands behind it. -/
theorem quote_cases {a b : Text} {o q : Char} (h : s ++ q :: rest = a ++ o :: b) (ha : ∀ c ∈ a, isQuote c = false)
    (hq : isQuote q) : s = a ∨ ∃ s', s = a ++ o :: s' ∧ s' ++ q :: rest = b := by
  have hmem : q ∉ a := by
    intro hmem
    rw [ha q hmem] at hq
    cases hq
  obtain ⟨y, rfl, hy⟩ := Text.exists_append_of_notMem h hmem
  cases y with
  | nil => exact .inl (List.append_nil a)
  | cons c y =>
      obtain ⟨rfl, rfl⟩ := List.cons_eq_cons.1 hy
      exact .inr ⟨y, rfl, rfl⟩

/-- A text that ends in another word, or in no white space, does not end in the keyword of a
declaration. -/
theorem not_endsInKeyword {a w : Text} {c : Char} (hc : Text.isBlank c = false) (hw : ∀ c ∈ w, Text.isBlank c)
    (h : w = [] ∨ ¬ "layout".toList <:+ a ++ [c]) : ¬ EndsInKeyword (a ++ [c] ++ w) := by
  rintro ⟨s, g, heq, hne, hg⟩
  rw [← List.append_assoc s] at heq
  obtain ⟨hword, rfl⟩ := Text.append_inj_of_span_right heq hw hg (by simpa using hc) (by simp; decide)
  exact h.elim (fun hnil => hne hnil) fun hother => hother ⟨s, hword.symm⟩

/-- No declaration starts on the line of a route. -/
theorem not_occursIn_opening_routeLine {page action : Text} (hpage : Name.IsNormal page)
    (haction : Name.IsNormal action) :
    opening.occursIn (Route.line (Route.pageDeclaration page action)) = false := by
  rw [← Bool.not_eq_true, occursIn_opening_iff]
  rintro ⟨s, q, rest, heq, hkeyword, hq⟩
  have hname : ∀ (a name : Text) (c : Char), Name.IsNormal name → Text.isBlank c = false →
      ¬ EndsInKeyword (a ++ [c] ++ name) := by
    intro a name c hnormal hc
    rcases List.eq_nil_or_concat' name with rfl | ⟨r, e, rfl⟩
    · exact not_endsInKeyword hc (by simp) (.inl rfl)
    · have he := Name.not_isBlank_of_isNameChar (hnormal.isNameChar e (by simp))
      have hend := not_endsInKeyword (a := a ++ [c] ++ r) he (by simp) (.inl rfl)
      simpa using hend
  have hquoted : ∀ (a name : Text), (∀ c ∈ a, isQuote c = false) → Name.IsNormal name →
      ∀ c ∈ a ++ name, isQuote c = false := by
    intro a name ha hnormal c hc
    exact (List.mem_append.1 hc).elim (ha c) (not_isQuote_of_mem hnormal c)
  have hline : s ++ q :: rest = "  get ".toList ++ '"' :: (("/".toList ++ page)
      ++ '"' :: (", to: ".toList ++ '"' :: (("home#".toList ++ action) ++ '"' :: ['\n']))) := by
    rw [← heq, Route.line, Route.pageDeclaration_eq]
    simp
  -- what stands before each of the four quotation marks
  have hfirst : ∀ c ∈ "  get ".toList, isQuote c = false := by decide
  have hsecond : ∀ c ∈ "/".toList ++ page, isQuote c = false := hquoted _ _ (by decide) hpage
  have hthird : ∀ c ∈ ", to: ".toList, isQuote c = false := by decide
  have hfourth : ∀ c ∈ "home#".toList ++ action, isQuote c = false := hquoted _ _ (by decide) haction
  rcases quote_cases hline hfirst hq with rfl | ⟨s₁, rfl, hline₁⟩
  · exact not_endsInKeyword (a := "  ge".toList) (c := 't') (w := [' ']) (by decide) (by decide) (.inr (by decide)) hkeyword
  rcases quote_cases hline₁ hsecond hq with rfl | ⟨s₂, rfl, hline₂⟩
  · exact hname ("  get ".toList ++ ['"']) page '/' hpage (by decide) (by simpa using hkeyword)
  rcases quote_cases hline₂ hthird hq with rfl | ⟨s₃, rfl, hline₃⟩
  · have hcolon : ∀ a : Text, ¬ "layout".toList <:+ a ++ [':'] := by
      rintro a ⟨z, hz⟩
      have hlast := congrArg List.getLast? hz
      simp at hlast
    refine not_endsInKeyword (a := "  get ".toList ++ '"' :: (("/".toList ++ page) ++ '"' :: ", to".toList)) (c := ':')
      (w := [' ']) (by decide) (by decide) (.inr (hcolon _)) ?_
    simpa using hkeyword
  rcases quote_cases hline₃ hfourth hq with rfl | ⟨s₄, rfl, hline₄⟩
  · refine hname ("  get ".toList ++ '"' :: (("/".toList ++ page) ++ '"' :: (", to: ".toList ++ '"' :: "home".toList))) action
      '#' haction (by decide) ?_
    simpa using hkeyword
  · have hmem : q ∈ ['\n'] := by
      rw [← hline₄]
      simp
    rw [List.mem_singleton.1 hmem] at hq
    cases hq

/-- The line of a route declares no layout. -/
theorem declares_routeLine {page action : Text} (hpage : Name.IsNormal page) (haction : Name.IsNormal action) :
    Declares (Route.line (Route.pageDeclaration page action)) [] := by
  have hnormal : (Route.Declaration.page page action).Normal := ⟨hpage, haction⟩
  have hone : wholeLines (Route.line (Route.pageDeclaration page action)) = [Route.line (Route.pageDeclaration page action)] :=
    Text.wholeLines_line (s := "  ".toList ++ Route.pageDeclaration page action) (by
      have hmem : '\n' ∉ Route.pageDeclaration page action := hnormal.newline_notMem
      simpa using hmem)
  have hunquoted : Unquoted (Route.line (Route.pageDeclaration page action)) :=
    Route.unquoted_line (.page page action)
  refine ⟨?_, ?_, by simp⟩
  · rw [openingLines, hone]
    exact List.filter_cons_of_neg (by simp [not_occursIn_opening_routeLine hpage haction])
  · rw [hone]
    simpa using not_startsQuoted hunquoted

-- ======================================================== what is put in and taken out

theorem matchesLines_directiveLine (layout : Text) : (LayoutDirective.directiveLine layout).MatchesLines := by
  refine matchesLines_append (fun before u rest h => ?_) fun _ _ _ => of_matches_lineBreakAndBlank
  obtain ⟨_, x, rfl, h, -⟩ := matches_append.1 h
  obtain ⟨_, v, rfl, h, hdeclaration⟩ := matches_append.1 h
  obtain ⟨_, a, rfl, hstart, -⟩ := matches_append.1 h
  obtain ⟨_, w, rfl, -, hquoted⟩ := matches_append.1 hdeclaration
  obtain ⟨o, c, -, -, rfl⟩ := matches_quoted.1 hquoted
  exact ⟨(matches_lineStart.1 hstart).2, by simp⟩

theorem matchesLines_block (name : Text) : (ControllerAction.block name).MatchesLines := by
  refine matchesLines_append (fun before u rest h => ?_) fun _ _ _ => of_matches_lineBreakAndBlank
  obtain ⟨_, _, rfl, h, -⟩ := matches_append.1 h
  obtain ⟨_, _, rfl, h, -⟩ := matches_append.1 h
  obtain ⟨_, w, rfl, h, hend⟩ := matches_append.1 h
  obtain ⟨_, _, rfl, h, -⟩ := matches_append.1 h
  obtain ⟨_, _, rfl, h, -⟩ := matches_append.1 h
  obtain ⟨_, _, rfl, h, -⟩ := matches_append.1 h
  obtain ⟨_, _, rfl, hhead, -⟩ := matches_append.1 h
  obtain rfl := matches_literal.1 hend
  exact ⟨(ControllerAction.matches_head.1 hhead).1, by simp⟩

theorem matchesLines_pageLine (page : Text) : (Route.pageLine page).MatchesLines := by
  refine matchesLines_append (fun before u rest h => ?_) fun _ _ _ => of_matches_lineBreak
  obtain ⟨_, _, rfl, h, -⟩ := matches_append.1 h
  obtain ⟨_, c, rfl, h, hquote⟩ := matches_append.1 h
  obtain ⟨_, _, rfl, h, -⟩ := matches_append.1 h
  obtain ⟨_, _, rfl, h, -⟩ := matches_append.1 h
  obtain ⟨_, _, rfl, h, -⟩ := matches_append.1 h
  obtain ⟨_, _, rfl, h, -⟩ := matches_append.1 h
  obtain ⟨_, _, rfl, h, -⟩ := matches_append.1 h
  obtain ⟨_, _, rfl, hstart, -⟩ := matches_append.1 h
  obtain ⟨q, -, rfl⟩ := matches_quote.1 hquote
  exact ⟨(matches_lineStart.1 hstart).2, by simp⟩

/-- Where a run of newlines is cut to two, empty lines go. -/
theorem keepsLines_blankRun : KeepsLines ControllerAction.blankRun fun _ => "\n\n" where
  hit := by
    intro start a hit rest _ ha h
    obtain ⟨rest', heq, haccepts⟩ := matchAt_sound h
    obtain ⟨u, w, htext, hthree, hmany⟩ := matches_append.1 ⟨_, haccepts⟩
    obtain rfl := matches_literal.1 hthree
    have htwo : a ++ "\n\n".toList = (a ++ ['\n']) ++ ['\n'] := by simp
    have hmore : a ++ hit.text = (a ++ ['\n']) ++ '\n' :: ('\n' :: w) := by
      rw [htext]
      simp
    refine .inl ⟨?_, ?_, ?_⟩
    · rw [hmore]
      refine .append Text.endsLine_newline (.inr ?_)
      rcases List.eq_nil_or_concat' w with rfl | ⟨v, c, rfl⟩
      · exact ⟨['\n'], rfl⟩
      · obtain rfl : c = '\n' := by simpa using matches_many.1 hmany c (by simp)
        exact ⟨'\n' :: '\n' :: v, rfl⟩
    · rw [htwo]
      exact Text.endsLine_newline
    · rw [htwo, hmore, Text.wholeLines_append Text.endsLine_newline,
        Text.wholeLines_append Text.endsLine_newline]
      exact .append (.refl _) ((List.nil_sublist _).cons_cons _)

theorem collapseBlankRuns_sublist (t : Text) :
    (wholeLines (ControllerAction.collapseBlankRuns t)).Sublist (wholeLines t) := by
  refine keepsLines_blankRun.rewrite_sublist ?_ t
  intro before t hit hmatch
  obtain ⟨rest, -, haccepts⟩ := matchAt_sound hmatch
  obtain ⟨u, w, htext, hthree, -⟩ := matches_append.1 ⟨_, haccepts⟩
  rw [htext, matches_literal.1 hthree]
  simp

namespace Declares

variable (h : Declares t ds)

include h

/-- The empty action that is put in has no quotation mark. -/
theorem insertAction (hname : Name.IsNormal name) (hinsert : ControllerAction.insert name t = .ok (some t')) :
    Declares t' ds := by
  unfold ControllerAction.insert at hinsert
  split at hinsert
  next => cases hinsert
  next =>
    split at hinsert
    next front back hcut =>
      cases hinsert
      obtain ⟨hlines, hne⟩ := ControllerAction.append_of_splitAtLastEnd hcut
      have htext : t = front.flatten ++ back.flatten := by
        rw [← List.flatten_append, ← hlines, Text.flatten_wholeLines]
      have hfront : EndsLine front.flatten := by
        rw [← List.flatMap_id]
        exact Text.endsLine_flatMap fun l hl => ((Text.wholeLines_eq_append hlines hne).1 l hl).1
      have hunquoted : ∀ c ∈ ControllerAction.emptyBlock name, isQuote c = false := by
        have hdef : ∀ c ∈ "  def ".toList, isQuote c = false := by decide
        have hend : ∀ c ∈ "\n  end\n\n".toList, isQuote c = false := by decide
        intro c hc
        rw [ControllerAction.emptyBlock_text] at hc
        rcases List.mem_append.1 hc with hc | hc
        · rcases List.mem_append.1 hc with hc | hc
          · exact hdef c hc
          · exact not_isQuote_of_mem hname c hc
        · exact hend c hc
      exact h.put_nil htext hfront (ControllerAction.endsLine_emptyBlock name) (declares_nil hunquoted)
    next => cases hinsert

/-- An action that is taken out takes whole lines with it, and directives if they are among
those. -/
theorem removeAction (hremove : ControllerAction.remove name t = some t') :
    ∃ ds', ds'.Sublist ds ∧ Declares t' ds' := by
  unfold ControllerAction.remove at hremove
  split at hremove
  next =>
    rw [← Option.some_inj.1 hremove]
    refine h.of_sublist ?_
    exact (collapseBlankRuns_sublist _).trans ((matchesLines_block name).delete_sublist t)
  next => cases hremove

/-- The directive is put in at the start of a line. -/
theorem insert (hd : IsDirective (layout, view))
    (hinsert : LayoutDirective.insert layout view homeClass t = .ok (some t')) :
    layout ∉ ds.map Prod.fst ∧ ∃ front back, ds = front ++ back ∧ Declares t' (front ++ (layout, view) :: back) := by
  unfold LayoutDirective.insert at hinsert
  split at hinsert
  next => cases hinsert
  next hdeclared =>
    refine ⟨fun hmem => ?_, ?_⟩
    · exact hdeclared ((occursIn_declaration_iff h hd.layout).2 hmem)
    · split at hinsert
      next front hit back hfirst =>
        cases hinsert
        obtain ⟨htext, -, -⟩ := of_first?_eq_some hfirst
        rw [← List.append_assoc] at htext
        have hnewline : Declares ['\n'] [] := declares_nil (by decide)
        have hdirective := (declares_line hd).append (endsLine_line _) hnewline
        rw [directive_eq_line]
        obtain ⟨ds₁, ds₂, hds, hafter⟩ :=
          h.put htext (LayoutDirective.endsLine_classLine hfirst) Text.endsLine_newline hdirective
        refine ⟨ds₁, ds₂, hds, ?_⟩
        simpa using hafter
      next => cases hinsert

/-- A route is put in behind the line that opens the block of routes. -/
theorem insertRoute {page action : Text} (hpage : Name.IsNormal page) (haction : Name.IsNormal action)
    (hinsert : Route.insertPage page action t = .ok (some t')) : Declares t' ds := by
  unfold Route.insertPage at hinsert
  dsimp only at hinsert
  split at hinsert
  next => cases hinsert
  next =>
    unfold Route.insertLine at hinsert
    split at hinsert
    next front hit back hfirst =>
      cases hinsert
      obtain ⟨htext, -, -⟩ := of_first?_eq_some hfirst
      rw [← List.append_assoc] at htext
      exact h.put_nil htext (Route.endsLine_opener hfirst) (Route.endsLine_line _) (declares_routeLine hpage haction)
    next => cases hinsert

/-- A route that is taken out takes whole lines with it. -/
theorem removeRoute {page : Text} (hremove : Route.removePage page t = some t') :
    ∃ ds', ds'.Sublist ds ∧ Declares t' ds' := by
  unfold Route.removePage at hremove
  split at hremove
  next =>
    rw [← Option.some_inj.1 hremove]
    exact h.of_sublist ((matchesLines_pageLine page).delete_sublist t)
  next => cases hremove

/-- No directive for the layout is left, and no other one comes. -/
theorem remove (layout : Text) : ∃ ds', ds'.Sublist ds ∧ layout ∉ ds'.map Prod.fst
    ∧ Declares ((LayoutDirective.remove layout t).getD t) ds' := by
  unfold LayoutDirective.remove
  split
  next =>
    have hlines := matchesLines_directiveLine layout
    obtain ⟨ds', hsublist, hdeclares⟩ := h.of_sublist (hlines.delete_sublist t)
    refine ⟨ds', hsublist, fun hmem => ?_, hdeclares⟩
    obtain ⟨d, hd, rfl⟩ := List.mem_map.1 hmem
    have hproper := hdeclares.proper d hd
    exact hlines.notMem_wholeLines_delete (fun _ _ hstart => startsAt_directiveLine hproper hstart) t
      (hdeclares.mem_wholeLines_iff.2 hd)
  next hnone =>
    refine ⟨ds, .refl _, fun hmem => ?_, h⟩
    obtain ⟨d, hd, rfl⟩ := List.mem_map.1 hmem
    have hproper := h.proper d hd
    exact hnone (occursIn_of_mem_wholeLines (fun _ _ hstart => startsAt_directiveLine hproper hstart)
      (h.mem_wholeLines_iff.2 hd))

end Declares

-- ================================================================ layouts and views in pairs

namespace Paired

variable (h : Paired t ds)

include h

theorem insertAction (hname : Name.IsNormal name) (hinsert : ControllerAction.insert name t = .ok (some t')) :
    Paired t' ds :=
  ⟨h.toDeclares.insertAction hname hinsert, h.layouts, h.views⟩

theorem removeAction (hremove : ControllerAction.remove name t = some t') :
    ∃ ds', ds'.Sublist ds ∧ Paired t' ds' := by
  obtain ⟨ds', hsub, hdeclares⟩ := h.toDeclares.removeAction hremove
  exact ⟨ds', hsub, h.of_sublist hdeclares hsub⟩

theorem insertRoute {page action : Text} (hpage : Name.IsNormal page) (haction : Name.IsNormal action)
    (hinsert : Route.insertPage page action t = .ok (some t')) : Paired t' ds :=
  ⟨h.toDeclares.insertRoute hpage haction hinsert, h.layouts, h.views⟩

theorem removeRoute {page : Text} (hremove : Route.removePage page t = some t') :
    ∃ ds', ds'.Sublist ds ∧ Paired t' ds' := by
  obtain ⟨ds', hsub, hdeclares⟩ := h.toDeclares.removeRoute hremove
  exact ⟨ds', hsub, h.of_sublist hdeclares hsub⟩

/-- A view without a layout gets the one that is put in for it. -/
theorem insert (hd : IsDirective (layout, view)) (hnone : LayoutDirective.layoutFor? view t = none)
    (hinsert : LayoutDirective.insert layout view homeClass t = .ok (some t')) :
    ∃ ds', ds'.Perm ((layout, view) :: ds) ∧ Paired t' ds' := by
  obtain ⟨hlayout, front, back, rfl, hdeclares⟩ := h.toDeclares.insert hd hinsert
  have hview : view ∉ (front ++ back).map Prod.snd := by
    intro hmem
    obtain ⟨⟨other, _⟩, hpair, rfl⟩ := List.mem_map.1 hmem
    have hsome := (h.layoutFor?_eq_some_iff hd.view hd.view_ne_nil).2 hpair
    rw [hnone] at hsome
    cases hsome
  have hperm : (front ++ (layout, view) :: back).Perm ((layout, view) :: (front ++ back)) :=
    List.perm_middle
  refine ⟨_, hperm, hdeclares, ?_, ?_⟩
  · exact ((hperm.map Prod.fst).nodup_iff).2 (List.nodup_cons.2 ⟨hlayout, h.layouts⟩)
  · exact ((hperm.map Prod.snd).nodup_iff).2 (List.nodup_cons.2 ⟨hview, h.views⟩)

theorem remove (layout : Text) : ∃ ds', ds'.Sublist ds ∧ layout ∉ ds'.map Prod.fst
    ∧ Paired ((LayoutDirective.remove layout t).getD t) ds' := by
  obtain ⟨ds', hsub, hgone, hdeclares⟩ := h.toDeclares.remove layout
  exact ⟨ds', hsub, hgone, h.of_sublist hdeclares hsub⟩

end Paired

end SiteScaffold.Patch.Directives

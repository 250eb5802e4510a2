/-
Removal undoes insertion, however the text is written. What is put in stands as whole lines
between whole lines, and one argument serves all fragments (`delete_put`): a pattern that is told
by the lines starts nowhere in the text around the new lines if it started nowhere before, and
what is taken out starts at fewer places than that pattern; at the new lines themselves the
match is the new lines. So one match is found, and it leaves the text as it was.

An action also has the runs of newlines cut, in the text that was there before as well, so there
it is that text with its runs cut that comes back.
-/
import SiteScaffold.Proofs.Patch.BlankRuns
import SiteScaffold.Proofs.Patch.Presence

namespace SiteScaffold.Patch

open Pattern
open Text (EndsLine NoRun)

variable {p q : Pattern} {a b m c u page target name layout view : Text}

/-- Lines that are a match are taken out again, if in the text around them a pattern that is told
by its lines started nowhere, and matches start where that pattern does. -/
theorem delete_put (hlines : q.LineBased) (habsent : q.Clear none (a ++ b) [])
    (hstarts : ∀ before t rest, EndsLine t ∨ rest = [] → q.Clear before t rest → p.Clear before t rest)
    (ha : EndsLine a) (hm : EndsLine m) (hnext : Unquoted m)
    (hprefers : p.Prefers (lastAfter none a) m b) :
    p.occursIn (a ++ (m ++ b)) = true ∧ p.delete (a ++ (m ++ b)) = a ++ b := by
  obtain ⟨hfront, hback⟩ := hlines.clear_around ha hm hnext.append habsent
  constructor
  · exact occursIn_of_startsAt hprefers.startsAt (by simp [hnext.not_nil])
  · obtain ⟨hit, hmatch, rfl⟩ := matchAt_of_prefers hprefers
    have hclear := hstarts _ _ _ (.inl ha) hfront
    exact rewrite_of_hit hclear hmatch hnext.not_nil (hstarts _ _ _ (.inr rfl) hback)

-- ======================================================================= the fragments

namespace Route

/-- A route that is put in is taken out again, if the page had no other. -/
theorem removePage_insertPage (hpage : Name.IsNormal page) (htarget : Name.IsNormal target)
    (hinsert : insertPage page target c = .ok (some u)) (habsent : removePage page c = none) :
    removePage page u = some c := by
  rcases insertPage_cases hinsert with ⟨hnone, -⟩ | ⟨x, y, rfl, hx, hput⟩
  · cases hnone
  · obtain rfl := Option.some.inj hput
    have hnone : (pageLine page).occursIn (x ++ y) = false := by
      rw [Bool.eq_false_iff]
      intro hoccurs
      rw [removePage, if_pos hoccurs] at habsent
      cases habsent
    have hnext : Unquoted (line (pageDeclaration page target)) := unquoted_line (.page page target)
    obtain ⟨hoccurs, hdelete⟩ := delete_put (p := pageLine page) (lineBased_pageLine hpage)
      (occursIn_eq_false_iff.1 hnone) (fun _ _ _ _ h => h) hx (endsLine_line _) hnext
      (prefers_pageLine htarget (onNewLine_lastAfter hx onNewLine_none))
    rw [removePage, if_pos hoccurs, hdelete]

/-- A route that is put in is not put in again. -/
theorem insertPage_insertPage (hpage : Name.IsNormal page) (htarget : Name.IsNormal target)
    (hinsert : insertPage page target c = .ok (some u)) : insertPage page target u = .ok none := by
  obtain ⟨l, hl, htrim⟩ := declared_insertPage hpage htarget hinsert
  unfold insertPage
  exact if_pos (List.any_eq_true.2 ⟨l, hl, decide_eq_true htrim⟩)

end Route

namespace ControllerAction

/-- An action that is put in is taken out again, and the runs of newlines are cut. -/
theorem remove_insert (hname : Name.IsNormal name) (hinsert : insert name c = .ok (some u)) :
    remove name u = some (Text.cutRuns 0 c) := by
  have habsent : (definition name).occursIn c = false := by
    rw [Bool.eq_false_iff]
    intro hdefined
    rw [insert, if_pos hdefined] at hinsert
    cases hinsert
  rcases insert_cases hinsert with ⟨hnone, -⟩ | ⟨x, y, rfl, hx, -, hput⟩
  · cases hnone
  · obtain rfl := Option.some.inj hput
    obtain ⟨hoccurs, hdelete⟩ := delete_put (p := block name)
      (lineBased_definition (hname.notMem (c := '\n') (by decide))) (occursIn_eq_false_iff.1 habsent)
      (fun _ _ _ _ hclear => hclear.mono fun _ _ => startsAt_definition_of_block) hx
      (endsLine_emptyBlock name) (unquoted_emptyBlock name)
      (prefers_block hname (onNewLine_lastAfter hx onNewLine_none))
    rw [remove, if_pos hoccurs, hdelete, collapseBlankRuns_eq]

/-- An action that is put in is not put in again. -/
theorem insert_insert (hname : Name.IsNormal name) (hinsert : insert name c = .ok (some u)) :
    insert name u = .ok none := by
  have hdefined := occursIn_insert hname hinsert
  unfold insert
  exact if_pos hdefined

end ControllerAction

namespace LayoutDirective

/-- A directive is put behind the line that opens the class, and the layout was not declared. -/
theorem insert_some_cases (hinsert : insert layout view homeClass c = .ok (some u)) :
    (declaration layout).occursIn c = false
      ∧ ∃ x y, c = x ++ y ∧ EndsLine x ∧ u = x ++ (directive layout view ++ y) := by
  obtain ⟨habsent, front, hit, back, hfirst, hpatched⟩ := insert_eq_ok hinsert
  obtain ⟨htext, -, -⟩ := of_first?_eq_some hfirst
  refine ⟨habsent, front ++ hit.text, back, ?_, endsLine_classLine hfirst, Option.some.inj hpatched⟩
  rw [htext, List.append_assoc]

/-- A directive that is put in is taken out again. -/
theorem remove_insert (hlayout : Name.IsNormal layout) (hview : Name.IsNormal view)
    (hinsert : insert layout view homeClass c = .ok (some u)) : remove layout u = some c := by
  obtain ⟨habsent, x, y, rfl, hx, rfl⟩ := insert_some_cases hinsert
  obtain ⟨hoccurs, hdelete⟩ := delete_put (p := directiveLine layout) (lineBased_declaration hlayout)
    (occursIn_eq_false_iff.1 habsent) (fun _ _ _ => clear_directiveLine) hx (endsLine_directive layout view)
    (unquoted_directive layout view) (prefers_directiveLine hview (onNewLine_lastAfter hx onNewLine_none))
  rw [remove, if_pos hoccurs, hdelete]

/-- A directive that is put in is refused from then on. -/
theorem insert_insert (hinsert : insert layout view homeClass c = .ok (some u)) :
    insert layout view homeClass u = .error (.declared layout) := by
  have hdeclared := occursIn_insert hinsert
  unfold insert
  exact if_pos hdeclared

end LayoutDirective

-- ========================================================================= every text

/-- Removal undoes insertion on every text. What a route, an action and a layout leave when
they are put in is, without them, the text that was there; for an action its runs of newlines
are cut to two. None of them is put in twice. -/
theorem Fragment.remove_undoes_insert (hpage : Name.IsNormal page) (htarget : Name.IsNormal target)
    (hname : Name.IsNormal name) (hlayout : Name.IsNormal layout) (hview : Name.IsNormal view)
    (c u : Text) :
    ((Fragment.route page target).insert c = .ok (some u) →
        ((Fragment.route page target).remove c = none → (Fragment.route page target).remove u = some c)
          ∧ (Fragment.route page target).insert u = .ok none)
      ∧ ((Fragment.action name).insert c = .ok (some u) →
        (Fragment.action name).remove u = some (Text.cutRuns 0 c)
          ∧ (NoRun c → (Fragment.action name).remove u = some c)
          ∧ (Fragment.action name).insert u = .ok none)
      ∧ ((Fragment.layout layout view homeClass).insert c = .ok (some u) →
        (Fragment.layout layout view homeClass).remove u = some c
          ∧ (Fragment.layout layout view homeClass).insert u = .error (.declared layout)) := by
  refine ⟨fun hinsert => ⟨fun habsent => ?_, ?_⟩, fun hinsert => ⟨?_, fun hrun => ?_, ?_⟩, fun hinsert => ⟨?_, ?_⟩⟩
  · exact Route.removePage_insertPage hpage htarget hinsert habsent
  · exact Route.insertPage_insertPage hpage htarget hinsert
  · exact ControllerAction.remove_insert hname hinsert
  · have hremove := ControllerAction.remove_insert hname hinsert
    rwa [← ControllerAction.collapseBlankRuns_eq, ControllerAction.collapseBlankRuns_of_noRun hrun] at hremove
  · exact ControllerAction.insert_insert hname hinsert
  · exact LayoutDirective.remove_insert hlayout hview hinsert
  · exact LayoutDirective.insert_insert hinsert

/-- A route in a text with carriage returns and no last newline, and an action and a layout in a
class that is empty but for a long gap. -/
theorem Fragment.remove_undoes_insert_gap :
    (Fragment.route "about" "about").remove
        "Rails.application.routes.draw do\r\n  get \"/about\", to: \"home#about\"\nend"
      = some "Rails.application.routes.draw do\r\nend".toList
    ∧ (Fragment.action "about").remove
        "class HomeController < ApplicationController\n\n\n\n  def about\n  end\n\nend\n"
      = some "class HomeController < ApplicationController\n\nend\n".toList
    ∧ (Fragment.layout "landing" "about" homeClass).remove
        "class HomeController < ApplicationController\n  layout \"landing\", only: :about\n\n\n\n\nend\n"
      = some "class HomeController < ApplicationController\n\n\n\nend\n".toList := by
  have habout : Name.IsNormal "about" := ⟨"About", by decide +kernel⟩
  have hlanding : Name.IsNormal "landing" := ⟨"Landing", by decide +kernel⟩
  have hundone := Fragment.remove_undoes_insert habout habout habout hlanding habout
  refine ⟨?_, ?_, ?_⟩
  · exact ((hundone _ _).1 (by decide +kernel)).1 (by decide +kernel)
  · have hcut : "class HomeController < ApplicationController\n\nend\n".toList
        = Text.cutRuns 0 "class HomeController < ApplicationController\n\n\n\nend\n" := by decide +kernel
    rw [hcut]
    exact ((hundone _ _).2.1 (by decide +kernel)).1
  · exact ((hundone _ _).2.2 (by decide +kernel)).1

end SiteScaffold.Patch

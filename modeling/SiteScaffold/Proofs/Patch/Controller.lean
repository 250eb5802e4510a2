/-
A controller under patching. Whatever actions and layout directives are put into a
controller and taken out again, in whatever order, its file is at every point the
original text with the directives that are live behind the line that opens the
class and the actions that are live before the last `end` line (`run_refines`).

# Two places that do not disturb each other

Each kind of fragment has its own place, and what stands at the other place is to it a
part of the text around:

- a directive defines no action (`clear_definition_written`), so actions can be found,
  put in and taken out as if the directives were part of the original;
- an action has no quotation mark and declares no layout
  (`clear_declaration_emptyBlocks`), so the same holds of directives.

One request then does to the text what `Request.step` says of the lists
(`step_refines`), and a run follows by induction.
-/
import SiteScaffold.Proofs.Patch.ControllerAction
import SiteScaffold.Proofs.Patch.LayoutDirective
import SiteScaffold.Proofs.Patch.HostFile
import SiteScaffold.Proofs.Machine

namespace SiteScaffold.Patch.Controller

open Pattern
open Text (EndsLine NoRun)
open ControllerAction (definition emptyBlock withActions StartsAtEnd)
open LayoutDirective (declaration written withDirectives)

-- ============================================================ the original text

/-- A controller in three parts: `opening` goes up to the end of the first line that
opens the class, `body` from there to the last line that holds nothing but `end`, and
`closing` starts with that line. -/
structure Host (opening body closing : Text) : Prop where
  classLine : ∃ front hit, (LayoutDirective.classLine homeClass).first? (opening ++ body ++ closing)
    = some (front, hit, body ++ closing) ∧ opening = front ++ hit.text
  lastEnd : ∃ before line after,
    Text.wholeLines (opening ++ body ++ closing) = before ++ line :: after
      ∧ before.flatten = opening ++ body ∧ Text.trim line = "end".toList
      ∧ ∀ l ∈ after, Text.trim l ≠ "end".toList
  /-- The first character behind the opening that is no white space stands on the
  very next line and is no quotation mark. -/
  next : ∃ blank c rest, body ++ closing = blank ++ c :: rest
    ∧ (∀ d ∈ blank, Text.isBlank d ∧ d ≠ '\n') ∧ Text.isBlank c = false ∧ isQuote c = false
  noRun : NoRun (opening ++ body ++ closing)

variable {opening body closing : Text}

namespace Host

theorem endsFirst (h : Host opening body closing) :
    (LayoutDirective.classLine homeClass).EndsFirst opening := by
  obtain ⟨front, hit, hfirst, rfl⟩ := h.classLine
  exact LayoutDirective.endsFirst_classLine hfirst

theorem endsLine_opening (h : Host opening body closing) : EndsLine opening := by
  obtain ⟨front, hit, hfirst, rfl⟩ := h.classLine
  exact LayoutDirective.endsLine_classLine hfirst

/-- The last `end` line cuts the text into whole lines and what starts with it. -/
theorem cut (h : Host opening body closing) : EndsLine body ∧ StartsAtEnd closing := by
  obtain ⟨before, line, after, hlines, hbefore, hend, hafter⟩ := h.lastEnd
  obtain ⟨hfront, hback⟩ := ControllerAction.cut_at_end hlines hend hafter
  have hclosing : (line :: after).flatten = closing := by
    have htext := Text.flatten_wholeLines (opening ++ body ++ closing)
    rw [hlines, List.flatten_append, hbefore] at htext
    exact List.append_cancel_left htext
  rw [hbefore] at hfront
  rw [hclosing] at hback
  refine ⟨?_, hback⟩
  by_cases hbody : body = []
  · exact .inl hbody
  · exact .inr (hfront.of_append hbody)

/-- The body, if there is one, starts within its first line. -/
theorem body_eq_nil_or (h : Host opening body closing) :
    body = [] ∨ Unquoted body ∧ '\n' ∉ body.head? := by
  obtain ⟨blank, c, rest, heq, hblank, hc, hquote⟩ := h.next
  by_cases hbody : body = []
  · exact .inl hbody
  · obtain ⟨s, hs⟩ := h.cut.1.resolve_left hbody
    have hmem : '\n' ∉ blank := fun hmem => (hblank _ hmem).2 rfl
    have hline : s ++ '\n' :: closing = blank ++ c :: rest := by
      rw [← heq, hs]
      simp
    obtain ⟨y, rfl, hy⟩ := Text.exists_append_of_notMem hline hmem
    right
    have hcut : body = blank ++ (y ++ ['\n']) := by
      rw [hs]
      simp
    cases y with
    | nil =>
        obtain ⟨rfl, -⟩ := List.cons_eq_cons.1 hy
        cases hc
    | cons d y =>
        obtain ⟨rfl, -⟩ := List.cons_eq_cons.1 hy
        refine ⟨⟨blank, c, y ++ ['\n'], hcut, fun d hd => (hblank d hd).1, hc, hquote⟩, ?_⟩
        rw [hcut]
        cases blank with
        | nil =>
            intro hnewline
            obtain rfl : c = '\n' := by simpa using hnewline
            cases hc
        | cons d blank =>
            intro hnewline
            obtain rfl : d = '\n' := by simpa using hnewline
            exact hmem (List.mem_cons_self ..)

end Host

-- ============================================================ the two places apart

variable {name layout view : Text} {before : Option Char} {rest : Text} {names : List Text}
  {directives : List (Text × Text)}

/-- A directive defines no action. -/
theorem clear_definition_written (hsound : LayoutDirective.Sound directives) :
    (definition name).Clear before (written directives) rest := by
  have hstarts : ∀ before s, (definition name).StartsAt before s → OnNewLine before :=
    fun _ _ h => (ControllerAction.startsAt_definition.1 h).1
  refine clear_flatMap (P := fun _ => True) (by simp) trivial fun d hd before rest _ => ?_
  obtain ⟨hlayout, hview⟩ := hsound d hd
  have hlines : LayoutDirective.directive d.1 d.2
      = ("  layout ".toList ++ '"' :: (d.1 ++ '"' :: (", only: :".toList ++ d.2)) ++ ['\n'])
        ++ ([] ++ ['\n']) := by
    have hend : "\n\n".toList = ['\n'] ++ ['\n'] := rfl
    rw [LayoutDirective.directive_eq, hend]
    simp only [List.append_assoc, List.cons_append, List.nil_append]
  show (definition name).Clear before (LayoutDirective.directive d.1 d.2) rest
  rw [hlines]
  refine clear_append.2 ⟨clear_line hstarts ?_ ?_, clear_line hstarts (by simp) ?_⟩
  · have hmem : '\n' ∉ d.1 ∧ '\n' ∉ d.2 := ⟨hlayout.notMem (by decide), hview.notMem (by decide)⟩
    simpa using hmem
  · exact ControllerAction.not_startsAt_definition (x := "  ".toList) (c := 'l') (by decide)
      (by decide) (by decide)
  · exact ControllerAction.not_startsAt_definition (x := []) (c := '\n') (by simp) (by decide)
      (by decide)

/-- An action declares no layout, if no quotation mark comes next. -/
theorem clear_declaration_emptyBlocks (hlayout : Name.IsNormal layout)
    (hnames : ∀ name ∈ names, Name.IsNormal name) (hnext : Unquoted rest) :
    (declaration layout).Clear before (names.flatMap emptyBlock) rest := by
  refine LayoutDirective.clear_of_unquoted hlayout (ControllerAction.endsLine_emptyBlocks names) ?_ hnext
  intro c hc
  obtain ⟨name, hname, hc⟩ := List.mem_flatMap.1 hc
  have hfixed : ∀ c ∈ "  def ".toList ++ "\n  end\n\n".toList, isQuote c = false := by decide
  simp only [ControllerAction.emptyBlock_text, List.mem_append] at hc
  rcases hc with (hc | hc) | hc
  · exact hfixed c (List.mem_append_left _ hc)
  · exact Name.not_isQuote_of_isNameChar ((hnames name hname).isNameChar c hc)
  · exact hfixed c (List.mem_append_right _ hc)

-- =================================================================== what is live

/-- The fragments that are live in a controller: the directives, a layout and a view
each, latest first, and the actions, oldest first. -/
structure Live where
  directives : List (Text × Text)
  actions : List Text
  deriving Repr, DecidableEq

namespace Live

/-- Nothing is live. -/
def none : Live := ⟨[], []⟩

/-- The controller with what is live in it. -/
def text (opening body closing : Text) (live : Live) : Text :=
  opening ++ (written live.directives ++ (body ++ (live.actions.flatMap emptyBlock ++ closing)))

/-- Live fragments have normal names, and no name is live twice. -/
structure Sound (live : Live) : Prop where
  directives : LayoutDirective.Sound live.directives
  actions : ∀ name ∈ live.actions, Name.IsNormal name
  layoutsOnce : (live.directives.map Prod.fst).Nodup
  actionsOnce : live.actions.Nodup

theorem sound_none : none.Sound where
  directives := by simp [none, LayoutDirective.Sound]
  actions := by simp [none]
  layoutsOnce := .nil
  actionsOnce := .nil

theorem text_none (opening body closing : Text) :
    none.text opening body closing = opening ++ body ++ closing := by
  simp [text, none, written]

variable {live : Live}

/-- To an action, the directives are a part of the text around. -/
theorem text_eq_withActions (opening body closing : Text) (live : Live) :
    live.text opening body closing
      = withActions (opening ++ (written live.directives ++ body)) live.actions closing := by
  simp [text, withActions]

/-- To a directive, the actions are a part of the text around. -/
theorem text_eq_withDirectives (opening body closing : Text) (live : Live) :
    live.text opening body closing
      = withDirectives opening live.directives (body ++ (live.actions.flatMap emptyBlock ++ closing)) :=
  rfl

end Live

namespace Host

variable {live : Live}

theorem unquoted (h : Host opening body closing) (names : List Text) :
    Unquoted (body ++ (names.flatMap emptyBlock ++ closing)) := by
  rcases h.body_eq_nil_or with rfl | ⟨hbody, -⟩
  · exact unquoted_flatMap (fun name _ => ControllerAction.unquoted_emptyBlock name) h.cut.2.unquoted
  · exact hbody.append

/-- The text around the actions. -/
theorem frame (h : Host opening body closing) (hsound : live.Sound) :
    ControllerAction.Frame (opening ++ (written live.directives ++ body)) closing where
  whole := h.endsLine_opening.append
    ((LayoutDirective.endsLine_written live.directives).append h.cut.1)
  last := h.cut.2
  noRun := by
    have hrun := h.noRun
    rw [List.append_assoc] at hrun
    have hhead : '\n' ∉ (body ++ closing).head? := by
      rcases h.body_eq_nil_or with rfl | ⟨hbody, hhead⟩
      · exact h.cut.2.head
      · obtain ⟨c, s, rfl⟩ := List.exists_cons_of_ne_nil hbody.not_nil
        exact hhead
    obtain ⟨hback, hbackHead⟩ := Text.noRun_flatMap (f := fun d : Text × Text => LayoutDirective.directive d.1 d.2)
      (fun d hd => LayoutDirective.noRun_directive (hsound.directives d hd).1 (hsound.directives d hd).2)
      (fun d _ => by rw [LayoutDirective.directive_eq]; rfl) hrun.right hhead
    rw [List.append_assoc, List.append_assoc]
    exact hrun.left.append hback hbackHead

/-- An action that the original does not define is not defined in the text around the
actions. -/
theorem fresh_action (h : Host opening body closing) (hsound : live.Sound)
    (hname : ControllerAction.Fresh (opening ++ body ++ closing) name) :
    ControllerAction.Fresh (opening ++ (written live.directives ++ body) ++ closing) name where
  normal := hname.normal
  not_nil := hname.not_nil
  absent := by
    have hclear := occursIn_eq_false_iff.1 hname.absent
    have hline := ControllerAction.lineBased_definition (hname.normal.notMem (c := '\n') (by decide))
    have hbody : Unquoted (body ++ closing) := h.unquoted []
    rw [List.append_assoc] at hclear
    rw [occursIn_eq_false_iff, List.append_assoc, List.append_assoc]
    exact hline.clear_insert h.endsLine_opening (LayoutDirective.endsLine_written _)
      (LayoutDirective.unquoted_written hbody _) hclear (clear_definition_written hsound.directives)

/-- A layout that the original does not declare is not declared in the text around the
directives. -/
theorem fresh_layout (h : Host opening body closing) (hsound : live.Sound)
    (hlayout : LayoutDirective.Fresh (opening ++ body ++ closing) layout) :
    LayoutDirective.Fresh (opening ++ (body ++ (live.actions.flatMap emptyBlock ++ closing))) layout where
  normal := hlayout.normal
  absent := by
    have hclear := occursIn_eq_false_iff.1 hlayout.absent
    have hbased := LayoutDirective.lineBased_declaration hlayout.normal
    rw [occursIn_eq_false_iff, ← List.append_assoc]
    refine hbased.clear_insert (h.endsLine_opening.append h.cut.1)
      (ControllerAction.endsLine_emptyBlocks _) ?_ hclear ?_
    · exact unquoted_flatMap (fun name _ => ControllerAction.unquoted_emptyBlock name) h.cut.2.unquoted
    · exact clear_declaration_emptyBlocks hlayout.normal hsound.actions h.cut.2.unquoted

end Host

-- ======================================================================= requests

/-- A request to patch a controller. -/
inductive Request where
  | insertAction (name : Text)
  | removeAction (name : Text)
  | insertLayout (layout view : Text)
  | removeLayout (layout : Text)
  deriving Repr, DecidableEq

namespace Request

/-- Requests to patch the controller at a path. -/
def patch (path : Text) : Machine Request Disk (Except Failure Outcome)
  | insertAction name => (HostFile.insert path (.action name)).on
  | removeAction name => (HostFile.remove path (.action name)).on
  | insertLayout layout view => (HostFile.insert path (.layout layout view homeClass)).on
  | removeLayout layout => (HostFile.remove path (.layout layout [] homeClass)).on

/-- Whether the original text leaves a request its names. -/
def Fits (content : Text) : Request → Prop
  | insertAction name | removeAction name => ControllerAction.Fresh content name
  | insertLayout layout view => LayoutDirective.Fresh content layout ∧ Name.IsNormal view
  | removeLayout layout => LayoutDirective.Fresh content layout

/-- What a request answers, and what is live after it. A layout that is live is not
declared again, neither for the same view nor for another one. -/
def step (path : Text) : Machine Request Live (Except Failure Outcome)
  | insertAction name, live =>
    if name ∈ live.actions then (.ok .unchanged, live)
    else (.ok .applied, { live with actions := live.actions ++ [name] })
  | removeAction name, live =>
    if name ∈ live.actions then
      (.ok .applied, { live with actions := live.actions.filter (· ≠ name) })
    else (.ok .unchanged, live)
  | insertLayout layout view, live =>
    if layout ∈ live.directives.map Prod.fst then (.error ⟨[], .directiveConflict layout path⟩, live)
    else (.ok .applied, { live with directives := (layout, view) :: live.directives })
  | removeLayout layout, live =>
    if layout ∈ live.directives.map Prod.fst then
      (.ok .applied, { live with directives := live.directives.filter (·.1 ≠ layout) })
    else (.ok .unchanged, live)

end Request

variable {live : Live} {path : Text} {disk : Disk} {k : Key}

/-- What a request leaves live has normal names, none of them twice. -/
theorem Request.sound_step {request : Request}
    (hfits : request.Fits (opening ++ body ++ closing)) (hsound : live.Sound) :
    (Request.step path request live).2.Sound := by
  cases request with
  | insertAction name =>
      by_cases hmem : name ∈ live.actions
      · simpa [Request.step, hmem] using hsound
      · simp only [Request.step, if_neg hmem]
        refine { hsound with actions := fun other hother => ?_, actionsOnce := ?_ }
        · rcases List.mem_append.1 hother with hother | hother
          · exact hsound.actions other hother
          · rw [List.mem_singleton.1 hother]
            exact hfits.normal
        · rw [List.nodup_append]
          refine ⟨hsound.actionsOnce, by simp, fun other hother x hx => ?_⟩
          rw [List.mem_singleton.1 hx]
          rintro rfl
          exact hmem hother
  | removeAction name =>
      by_cases hmem : name ∈ live.actions
      · simp only [Request.step, if_pos hmem]
        exact { hsound with
          actions := fun other hother => hsound.actions other (List.mem_filter.1 hother).1
          actionsOnce := hsound.actionsOnce.filter _ }
      · simpa [Request.step, hmem] using hsound
  | insertLayout layout view =>
      by_cases hmem : layout ∈ live.directives.map Prod.fst
      · simpa only [Request.step, if_pos hmem] using hsound
      · simp only [Request.step, if_neg hmem]
        refine { hsound with directives := fun d hd => ?_, layoutsOnce := ?_ }
        · rcases List.mem_cons.1 hd with rfl | hd
          · exact ⟨hfits.1.normal, hfits.2⟩
          · exact hsound.directives d hd
        · exact List.nodup_cons.2 ⟨hmem, hsound.layoutsOnce⟩
  | removeLayout layout =>
      by_cases hmem : layout ∈ live.directives.map Prod.fst
      · simp only [Request.step, if_pos hmem]
        exact { hsound with
          directives := fun d hd => hsound.directives d (List.mem_filter.1 hd).1
          layoutsOnce := hsound.layoutsOnce.sublist (List.filter_sublist.map Prod.fst) }
      · simpa only [Request.step, if_neg hmem] using hsound

/-- One request does to the file what it does to the lists of what is live. -/
theorem step_refines {request : Request} (hhost : Host opening body closing)
    (hfits : request.Fits (opening ++ body ++ closing)) (hsound : live.Sound)
    (h : disk.HoldsText path k (live.text opening body closing)) :
    ∃ disk', Request.patch path request disk = ((Request.step path request live).1, disk')
      ∧ disk'.HoldsText path k ((Request.step path request live).2.text opening body closing) := by
  cases request with
  | insertAction name =>
      have hinsert := ControllerAction.insert_withActions (hhost.frame hsound)
        (hhost.fresh_action hsound hfits).undefined hsound.actions
      rw [← Live.text_eq_withActions] at hinsert
      obtain ⟨disk', hedit, hread, -⟩ := HostFile.insert_on (.action name) h hinsert
      refine ⟨disk', ?_⟩
      by_cases hmem : name ∈ live.actions
      · rw [if_pos hmem] at hedit hread
        simp only [Request.step, if_pos hmem]
        exact ⟨hedit, hread⟩
      · rw [if_neg hmem] at hedit hread
        simp only [Request.step, if_neg hmem]
        exact ⟨hedit, by rw [Live.text_eq_withActions]; exact hread⟩
  | removeAction name =>
      have hremove := ControllerAction.remove_withActions (hhost.frame hsound)
        (hhost.fresh_action hsound hfits).undefined hsound.actions
      rw [← Live.text_eq_withActions] at hremove
      obtain ⟨disk', hedit, hread, -⟩ := HostFile.remove_on (.action name) h
      refine ⟨disk', ?_⟩
      simp only [Fragment.remove, hremove] at hedit hread
      by_cases hmem : name ∈ live.actions
      · rw [if_pos hmem] at hedit hread
        simp only [Request.step, if_pos hmem]
        exact ⟨hedit, by rw [Live.text_eq_withActions]; exact hread⟩
      · rw [if_neg hmem] at hedit hread
        simp only [Request.step, if_neg hmem]
        exact ⟨hedit, hread⟩
  | insertLayout layout view =>
      have hinsert := LayoutDirective.insert_withDirectives view hhost.endsFirst
        hhost.endsLine_opening (hhost.unquoted live.actions) (hhost.fresh_layout hsound hfits.1)
        hsound.directives
      rw [← Live.text_eq_withDirectives] at hinsert
      by_cases hmem : layout ∈ live.directives.map Prod.fst
      · rw [if_pos hmem] at hinsert
        simp only [Request.step, if_pos hmem]
        have hedit := HostFile.insert_on_error (.layout layout view homeClass) h hinsert
        exact ⟨disk, hedit, h⟩
      · rw [if_neg hmem] at hinsert
        simp only [Request.step, if_neg hmem]
        obtain ⟨disk', hedit, hread, -⟩ :=
          HostFile.insert_on (.layout layout view homeClass) h hinsert
        exact ⟨disk', hedit, hread⟩
  | removeLayout layout =>
      have hremove := LayoutDirective.remove_withDirectives hhost.endsLine_opening
        (hhost.unquoted live.actions) (hhost.fresh_layout hsound hfits) hsound.directives
      rw [← Live.text_eq_withDirectives] at hremove
      obtain ⟨disk', hedit, hread, -⟩ :=
        HostFile.remove_on (.layout layout [] homeClass) h
      refine ⟨disk', ?_⟩
      simp only [Fragment.remove, hremove] at hedit hread
      by_cases hmem : layout ∈ live.directives.map Prod.fst
      · rw [if_pos hmem] at hedit hread
        simp only [Request.step, if_pos hmem]
        exact ⟨hedit, hread⟩
      · rw [if_neg hmem] at hedit hread
        simp only [Request.step, if_neg hmem]
        exact ⟨hedit, hread⟩

-- ============================================================================ runs

/-- What holds between what is live and the disk: the file is the original text with what
is live. -/
def Holds (path : Text) (k : Key) (opening body closing : Text) (live : Live) (disk : Disk) : Prop :=
  disk.HoldsText path k (live.text opening body closing) ∧ live.Sound

theorem holds_step {request : Request} (hhost : Host opening body closing)
    (hfits : request.Fits (opening ++ body ++ closing)) (h : Holds path k opening body closing live disk) :
    (Request.patch path request disk).1 = (Request.step path request live).1
      ∧ Holds path k opening body closing (Request.step path request live).2
        (Request.patch path request disk).2 := by
  obtain ⟨hread, hsound⟩ := h
  obtain ⟨disk', hpatch, hread'⟩ := step_refines hhost hfits hsound hread
  rw [hpatch]
  exact ⟨rfl, hread', Request.sound_step hfits hsound⟩

/-- Patching a controller is a matter of what is live. Every run of requests answers as
told by `Request.step`, and leaves the file with the original text, the live directives
behind its opening, latest first, and the live actions before its closing, oldest
first. No action and no layout is live twice, and once nothing is live the file is the
original text again. -/
theorem run_refines {requests : List Request} (hhost : Host opening body closing)
    (hfits : ∀ request ∈ requests, request.Fits (opening ++ body ++ closing))
    (h : disk.readText path = .ok (opening ++ body ++ closing)) :
    ((Request.patch path).run requests disk).1 = ((Request.step path).run requests .none).1
      ∧ ((Request.patch path).run requests disk).2.readText path
        = .ok (((Request.step path).run requests .none).2.text opening body closing)
      ∧ ((Request.step path).run requests .none).2.actions.Nodup
      ∧ (((Request.step path).run requests .none).2.directives.map Prod.fst).Nodup
      ∧ (((Request.step path).run requests .none).2 = .none →
        ((Request.patch path).run requests disk).2.readText path = .ok (opening ++ body ++ closing)) := by
  obtain ⟨k, hread⟩ := Disk.readText_eq_ok_iff.1 h
  rw [← Live.text_none] at hread
  obtain ⟨hanswers, hlast, hlive⟩ := Machine.run_simulates (Request.patch path)
    (Request.step path) (Holds path k opening body closing)
    (fun request hrequest _ _ => holds_step hhost (hfits request hrequest)) ⟨hread, Live.sound_none⟩
  have hfile := Disk.readText_eq_ok_iff.2 ⟨k, hlast⟩
  refine ⟨hanswers, hfile, hlive.actionsOnce, hlive.layoutsOnce, fun hnone => ?_⟩
  rw [hfile, hnone, Live.text_none]

/-- The line that opens the class of a small controller. -/
def smallOpening : Text := "class HomeController < ApplicationController\n"

theorem host_small : Host smallOpening [] "end\n" where
  classLine := ⟨[], ⟨smallOpening, []⟩, by decide +kernel, rfl⟩
  lastEnd := ⟨[smallOpening], "end\n".toList, [], by decide, by decide, by decide, by simp⟩
  next := ⟨[], 'e', "nd\n".toList, rfl, by simp, by decide, by decide⟩
  noRun := Text.noRun_of_count (by decide)

/-- A disk with nothing but the small controller on it. -/
def smallDisk : Disk :=
  Disk.blank.insert ["home.rb".toList] (.file false (.text (smallOpening ++ "end\n")))

theorem readText_smallDisk :
    smallDisk.readText "/home.rb" = .ok (smallOpening ++ [] ++ "end\n".toList) := by
  refine Disk.readText_eq_ok_iff.2 ⟨["home.rb".toList], false, Disk.locate_eq_ok_iff.2 ⟨?_, ?_⟩⟩
  · exact ⟨by decide, by decide, by decide⟩
  · refine .idle _ _ [] _ _ (by decide) (.file _ _ _ _ _ ?_ (by decide +kernel))
    exact ⟨by decide, by decide, by decide⟩

/-- A run on it: of two requests for one layout the second is refused, and removing the
action leaves the directive of the first. -/
theorem run_refines_small :
    ((Request.patch "/home.rb").run [.insertAction "about", .insertLayout "landing" "about",
        .insertLayout "landing" "contact", .removeAction "about"] smallDisk).1
      = [.ok .applied, .ok .applied, .error ⟨[], .directiveConflict "landing" "/home.rb"⟩,
        .ok .applied]
    ∧ ((Request.patch "/home.rb").run [.insertAction "about", .insertLayout "landing" "about",
        .insertLayout "landing" "contact", .removeAction "about"] smallDisk).2.readText "/home.rb"
      = .ok (smallOpening ++ "  layout \"landing\", only: :about\n\nend\n") := by
  have habout : ControllerAction.Fresh (smallOpening ++ [] ++ "end\n".toList) "about" :=
    ⟨⟨"About", by decide +kernel⟩, by decide, by decide +kernel⟩
  have hlanding : LayoutDirective.Fresh (smallOpening ++ [] ++ "end\n".toList) "landing" :=
    ⟨⟨"Landing", by decide +kernel⟩, by decide +kernel⟩
  have hviews : Name.IsNormal "about" ∧ Name.IsNormal "contact" :=
    ⟨⟨"about", by decide +kernel⟩, ⟨"contact", by decide +kernel⟩⟩
  have hrun := run_refines host_small (fun request (hrequest : request ∈ [.insertAction "about",
    .insertLayout "landing" "about", .insertLayout "landing" "contact", .removeAction "about"]) => by
      simp only [List.mem_cons, List.not_mem_nil, or_false] at hrequest
      rcases hrequest with rfl | rfl | rfl | rfl
      · exact habout
      · exact ⟨hlanding, hviews.1⟩
      · exact ⟨hlanding, hviews.2⟩
      · exact habout) readText_smallDisk
  exact ⟨hrun.1.trans (by rfl), hrun.2.1.trans (congrArg Except.ok (by decide))⟩

end SiteScaffold.Patch.Controller

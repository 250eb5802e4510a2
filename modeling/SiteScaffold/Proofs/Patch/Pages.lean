/-
Pages in a controller and in a file of routes: an action in the one and a route in the
other. Whatever pages were put in, the texts take another one, give it back, and hold one
definition and one declaration of each (`Texts.Takes`). Texts do if they are made of parts
that leave room for both (`Parts.Sound.takes`), and the texts of two files are
(`exists_apart`).
-/
import SiteScaffold.Proofs.Patch.ControllerAction
import SiteScaffold.Proofs.Patch.Route

namespace SiteScaffold.Patch.Pages

open Pattern
open Text (EndsLine NoRun)
open ControllerAction (definition withActions)
open Route (Declaration pageDeclaration pageLine withDeclarations)

variable {controller routes page : Text} {pages : List Text}

-- ============================================================================ pages

/-- Whether a controller and a file of routes know nothing of a page. -/
structure Unused (controller routes page : Text) : Prop where
  action : ControllerAction.Undefined controller page
  route : Route.Fresh routes page
  undeclared : ∀ l ∈ Text.lines routes, Text.trim l ≠ pageDeclaration page page

/-- The texts of a controller and of a file of routes, by the pages whose actions and by
those whose routes were put in, the first one first. -/
structure Texts where
  controller : List Text → List Text → Text
  routes : List Text → List Text → Text

/-- Whether the texts take actions and routes of pages of some kind. -/
structure Texts.Takes (texts : Texts) (Fits : Text → Prop) : Prop where
  insertAction : ∀ {actions routes page}, (∀ p ∈ actions, Fits p) → (∀ p ∈ routes, Fits p) →
    Fits page → ControllerAction.insert page (texts.controller actions routes)
      = .ok (if page ∈ actions then none else some (texts.controller (actions ++ [page]) routes))
  removeAction : ∀ {actions routes page}, (∀ p ∈ actions, Fits p) → (∀ p ∈ routes, Fits p) →
    Fits page → ControllerAction.remove page (texts.controller actions routes)
      = if page ∈ actions then some (texts.controller (actions.filter (· ≠ page)) routes) else none
  insertRoute : ∀ {actions routes page}, (∀ p ∈ actions, Fits p) → (∀ p ∈ routes, Fits p) →
    Fits page → Route.insertPage page page (texts.routes actions routes)
      = .ok (if page ∈ routes then none else some (texts.routes actions (routes ++ [page])))
  removeRoute : ∀ {actions routes page}, (∀ p ∈ actions, Fits p) → (∀ p ∈ routes, Fits p) →
    Fits page → Route.removePage page (texts.routes actions routes)
      = if page ∈ routes then some (texts.routes actions (routes.filter (· ≠ page))) else none
  definitions : ∀ {actions routes page}, (∀ p ∈ actions, Fits p) → (∀ p ∈ routes, Fits p) →
    Fits page → ((definition page).hits (texts.controller actions routes)).length = actions.count page
  lines : ∀ {actions routes page}, (∀ p ∈ actions, Fits p) → (∀ p ∈ routes, Fits p) →
    Fits page → ((pageLine page).hits (texts.routes actions routes)).length = routes.count page

-- ============================================================= the routes of pages

/-- The declarations of pages: each goes in front of the others. -/
def declared (pages : List Text) : List Declaration := pages.reverse.map fun p => .page p p

theorem declared_concat (pages : List Text) (page : Text) :
    declared (pages ++ [page]) = .page page page :: declared pages := by
  simp [declared]

theorem mem_declared : .page page page ∈ declared pages ↔ page ∈ pages := by
  simp [declared]

theorem any_declared : (declared pages).any (Declaration.isPage page) = decide (page ∈ pages) := by
  rw [Bool.eq_iff_iff]
  simp [declared, Declaration.isPage]

theorem filter_declared :
    (declared pages).filter (!Declaration.isPage page ·) = declared (pages.filter (· ≠ page)) := by
  unfold declared
  rw [List.filter_map, ← List.filter_reverse]
  congr 1
  refine List.filter_congr fun p _ => ?_
  simp [Declaration.isPage]

theorem countP_declared : (declared pages).countP (Declaration.isPage page) = pages.count page := by
  unfold declared
  rw [List.countP_map, List.countP_reverse, List.count_eq_countP]
  refine List.countP_congr fun p _ => ?_
  simp [Declaration.isPage]

theorem normal_declared (h : ∀ p ∈ pages, Name.IsNormal p) : ∀ d ∈ declared pages, d.Normal := by
  intro d hd
  obtain ⟨p, hp, rfl⟩ := List.mem_map.1 hd
  have hnormal := h p (List.mem_reverse.1 hp)
  exact ⟨hnormal, hnormal⟩

-- ============================================================================ parts

/-- What stands around the actions, by the routes that were put in, and around the routes,
by the actions. -/
structure Parts where
  front : List Text → Text
  back : List Text → Text
  opening : List Text → Text
  closing : List Text → Text

/-- The texts that are made of the parts. -/
def Parts.texts (parts : Parts) : Texts where
  controller := fun actions routes =>
    withActions (parts.front routes) actions (parts.back routes)
  routes := fun actions routes =>
    withDeclarations (parts.opening actions) (declared routes) (parts.closing actions)

/-- Whether actions and routes of pages of some kind can be put between the parts. -/
structure Parts.Sound (parts : Parts) (Fits : Text → Prop) : Prop where
  frame : ∀ {routes}, (∀ p ∈ routes, Fits p) →
    ControllerAction.Frame (parts.front routes) (parts.back routes)
  opens : ∀ {actions}, (∀ p ∈ actions, Fits p) → Route.opener.EndsFirst (parts.opening actions)
  whole : ∀ {actions}, (∀ p ∈ actions, Fits p) → EndsLine (parts.opening actions)
  unused : ∀ {actions routes page}, (∀ p ∈ actions, Fits p) → (∀ p ∈ routes, Fits p) → Fits page →
    Unused (parts.front routes ++ parts.back routes) (parts.opening actions ++ parts.closing actions)
      page

/-- Texts with sound parts take pages. -/
theorem Parts.Sound.takes {parts : Parts} {Fits : Text → Prop} (h : parts.Sound Fits) :
    parts.texts.Takes Fits := by
  have hnames : ∀ {pages : List Text}, (∀ p ∈ pages, Fits p) → ∀ p ∈ pages, Name.IsNormal p :=
    fun hpages p hp => (h.unused hpages hpages (hpages p hp)).action.normal
  have hdeclared : ∀ {pages : List Text}, (∀ p ∈ pages, Fits p) → ∀ d ∈ declared pages, d.Normal :=
    fun hpages => normal_declared (hnames hpages)
  constructor
  case insertAction =>
    intro actions routes page hactions hroutes hpage
    exact ControllerAction.insert_withActions (h.frame hroutes)
      (h.unused hactions hroutes hpage).action (hnames hactions)
  case removeAction =>
    intro actions routes page hactions hroutes hpage
    exact ControllerAction.remove_withActions (h.frame hroutes)
      (h.unused hactions hroutes hpage).action (hnames hactions)
  case insertRoute =>
    intro actions routes page hactions hroutes hpage
    have hunused := h.unused hactions hroutes hpage
    have hinsert := Route.insertPage_withDeclarations (h.opens hactions) (h.whole hactions)
      hunused.route.normal hunused.route.normal (hdeclared hroutes) hunused.undeclared
    simp only [mem_declared, ← declared_concat] at hinsert
    exact hinsert
  case removeRoute =>
    intro actions routes page hactions hroutes hpage
    have hremove := Route.removePage_withDeclarations (h.whole hactions)
      (h.unused hactions hroutes hpage).route (hdeclared hroutes)
    simp only [any_declared, filter_declared, decide_eq_true_eq] at hremove
    exact hremove
  case definitions =>
    intro actions routes page hactions hroutes hpage
    exact ControllerAction.length_hits_withActions (h.frame hroutes)
      (h.unused hactions hroutes hpage).action (hnames hactions)
  case lines =>
    intro actions routes page hactions hroutes hpage
    have hhits := Route.length_hits_withDeclarations (h.whole hactions)
      (h.unused hactions hroutes hpage).route (hdeclared hroutes)
    rw [countP_declared] at hhits
    exact hhits

/-- Two files take pages that they do not know yet. -/
theorem exists_apart {Fits : Text → Prop}
    (hend : ∃ l ∈ Text.wholeLines controller, Text.trim l = "end".toList)
    (hrun : NoRun controller) (hopener : Route.opener.occursIn routes)
    (hfits : ∀ p, Fits p → Unused controller routes p) :
    ∃ texts : Texts, texts.Takes Fits
      ∧ (∀ actions routes routes', texts.controller actions routes = texts.controller actions routes')
      ∧ (∀ actions actions' routes, texts.routes actions routes = texts.routes actions' routes)
      ∧ texts.controller [] [] = controller ∧ texts.routes [] [] = routes := by
  obtain ⟨front, back, rfl, hwhole, hlast⟩ := ControllerAction.exists_cut hend
  obtain ⟨⟨start, hit, closing⟩, hfirst⟩ := Option.isSome_iff_exists.1 hopener
  obtain ⟨htext, -, -⟩ := of_first?_eq_some hfirst
  rw [← List.append_assoc] at htext
  rw [htext] at hfits
  have hsound : Parts.Sound ⟨fun _ => front, fun _ => back, fun _ => start ++ hit.text,
      fun _ => closing⟩ Fits :=
    { frame := fun _ => ⟨hwhole, hlast, hrun⟩
      opens := fun _ => Route.endsFirst_opener hfirst
      whole := fun _ => Route.endsLine_opener hfirst
      unused := fun _ _ hpage => hfits _ hpage }
  exact ⟨_, hsound.takes, fun _ _ _ => rfl, fun _ _ _ => rfl, rfl, htext.symm⟩

end SiteScaffold.Patch.Pages

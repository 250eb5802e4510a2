/-
Fragments: the pieces of text the program puts into files that are there
already, and takes out again. Every fragment can be inserted into a content and
removed from it; either answers nothing when there is nothing to do.
-/
import SiteScaffold.Patch.Route
import SiteScaffold.Patch.ControllerAction
import SiteScaffold.Patch.LayoutDirective
import SiteScaffold.Patch.Shell
import SiteScaffold.Failure

namespace SiteScaffold.Patch

/-- The class that layout directives are written into. -/
def homeClass : Text := "HomeController"

/-- A piece of text that can be patched into or out of a file. -/
inductive Fragment where
  /-- The route of a page. -/
  | route (page action : Text)
  /-- The root route. -/
  | rootRoute (action : Text)
  /-- An empty action. -/
  | action (name : Text)
  /-- A layout for one view. -/
  | layout (layout view hostClass : Text)
  /-- The shared header and footer around every page. -/
  | shell
  deriving Repr, DecidableEq

namespace Fragment

/-- The fragment in a few words. -/
def describe : Fragment → Text
  | .route page _ => "route /" ++ page
  | .rootRoute target => "root route home#" ++ target
  | .action name => "action " ++ name
  | .layout name view _ => "layout \"" ++ name ++ "\" for :" ++ view
  | .shell => "shared header/footer shell"

/-- The content with the fragment; nothing if it is there. -/
def insert (fragment : Fragment) (content : Text) : Except Refusal (Option Text) :=
  match fragment with
  | .route page target => Route.insertPage page target content
  | .rootRoute target => Route.insertRoot target content
  | .action name => ControllerAction.insert name content
  | .layout name view hostClass => LayoutDirective.insert name view hostClass content
  | .shell => Shell.insert content

/-- The content without the fragment; nothing if it is not there. -/
def remove (fragment : Fragment) (content : Text) : Option Text :=
  match fragment with
  | .route page _ => Route.removePage page content
  | .rootRoute target => Route.removeRoot target content
  | .action name => ControllerAction.remove name content
  | .layout name _ _ => LayoutDirective.remove name content
  | .shell => Shell.remove content

end Fragment

/-- A refusal as the failure to edit a file. -/
def Refusal.cause (path : Text) : Refusal → Cause
  | declared layout => .directiveConflict layout path
  | noAnchor anchor => .anchorMissing anchor path

end SiteScaffold.Patch

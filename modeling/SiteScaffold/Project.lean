/-
A project: a folder laid out by convention. The module knows where things are
kept in it and reads off it what the commands need to know.
-/
import SiteScaffold.Name
import SiteScaffold.Pattern.Class
import SiteScaffold.Edit

namespace SiteScaffold

/-- A project, by the path of its folder. -/
structure Project where
  root : Text
  deriving Repr, DecidableEq

namespace Project

open Pattern

-- ========================================================== places

/-- A path in the project. -/
def path (project : Project) (relative : Text) : Text := Path.join project.root relative

def routesName : Text := "config/routes.rb"

def manifestName : Text := "Gemfile"

def importmapName : Text := "config/importmap.rb"

def viewSuffix : Text := ".html.erb"

def homeViewsName : Text := "app/views/home"

/-- The file of routes. -/
def routes (project : Project) : Text := project.path routesName

/-- The controller that owns every page's action and every layout
directive. -/
def homeController (project : Project) : Text :=
  project.path "app/controllers/home_controller.rb"

/-- The list of pinned packages. -/
def importmap (project : Project) : Text := project.path importmapName

/-- The layout around every page. -/
def applicationLayout (project : Project) : Text :=
  project.path "app/views/layouts/application.html.erb"

/-- The view of a page. -/
def view (project : Project) (page : Text) : Text :=
  Path.join (project.path homeViewsName) (page ++ viewSuffix)

/-- The stylesheet of a page. -/
def stylesheet (project : Project) (page : Text) : Text :=
  Path.join (project.path "app/assets/stylesheets") (page ++ ".css")

/-- The file of a Stimulus controller. -/
def stimulus (project : Project) (name : Text) : Text :=
  Path.join (project.path "app/javascript/controllers") (name ++ "_controller.js")

/-- The file of a layout. -/
def layout (project : Project) (name : Text) : Text :=
  Path.join (project.path "app/views/layouts") (name ++ viewSuffix)

/-- A path as it is shown to the operator: from the project's folder on, if it
lies there. -/
def shown (project : Project) (path : Text) : Text :=
  (Path.below? project.root path).getD path

-- ========================================================= reading

/-- The project in a folder. It has to have a file of routes and a
manifest. -/
def «open» (folder : Text) : Edit Project := do
  let project : Project := ⟨folder⟩
  let found ← Edit.ask fun disk =>
    disk.isFile project.routes && disk.isFile (project.path manifestName)
  if found then return project else Edit.fail (.notAProject folder)

/-- The pages that have a view, other than the index, in order. -/
def homeViews (project : Project) : Edit (List Text) := do
  let folder := project.path homeViewsName
  if !(← Edit.ask (·.isFolder folder)) then return []
  let entries ← Edit.list folder
  let pages : List Text := entries.filterMap fun (name, entry) =>
    if entry.isFile then Text.before? viewSuffix name else none
  return (pages.filter (· ≠ "index".toList)).mergeSort fun a b => !Text.less b a

/-- A line that pins a package. -/
def pinLine (package : Text) : Pattern := lineStart ++ slack ++ "pin" ++ gap ++ quoted package

/-- Whether a package is pinned. -/
def isPinned (project : Project) (package : Text) : Edit Bool := do
  if !(← Edit.ask (·.isFile project.importmap)) then
    Edit.fail (.precondition (importmapName
      ++ " not found. This project may not be using importmap."))
  return (pinLine package).occursIn (← Edit.readText project.importmap)

/-- The declaration of the application's module; its name is captured. -/
def moduleName : Pattern :=
  "module" ++ gap ++ capture 1 (one Char.isUpper ++ many fun c => c.isAlphanum || c = '_')

/-- The name of the folder a path leads to; of the path itself, if it leads
nowhere. -/
def folderName (path : Text) (disk : Disk) : Text :=
  match disk.find true path with
  | .ok (k, _) => k.getLast?.getD []
  | .error _ => (Path.fileName? path).getD []

/-- The title of the application: from its module, or else from the name of
its folder. -/
def applicationTitle (project : Project) : Edit Text :=
  Edit.ask fun disk =>
    let named := do
      let content ← (disk.readText (project.path "config/application.rb")).toOption
      let (_, hit, _) ← moduleName.first? content
      return Name.splitCamelCase (hit.group 1)
    named.getD (Text.join " " ((Text.split '_' (folderName project.root disk)).map
      Name.capitalize))

end Project

end SiteScaffold

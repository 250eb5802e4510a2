/-
The skeleton of a new project: the files written over what the project
generator made, and the entries that a lean project has no use for.
-/
import SiteScaffold.Template
import SiteScaffold.Edit

namespace SiteScaffold.Blueprint

/-- The files of the skeleton, by their paths in the project. -/
def files : List (Text × Text) :=
  [ ("app/controllers/home_controller.rb", Template.homeController),
    ("app/views/home/index.html.erb", Template.homeView),
    ("app/views/shared/_header.html.erb", Template.sharedHeader),
    ("app/views/shared/_navbar.html.erb", Template.sharedNavbar),
    ("app/views/shared/_footer.html.erb", Template.sharedFooter),
    ("app/assets/stylesheets/home.css", Template.pageStylesheet "home"),
    ("app/assets/stylesheets/header.css", Template.fill Template.sectionStylesheet "header"),
    ("app/assets/stylesheets/navbar.css", Template.fill Template.sectionStylesheet "nav"),
    ("app/assets/stylesheets/footer.css", Template.fill Template.sectionStylesheet "footer"),
    ("app/assets/images/.keep", []),
    ("app/assets/fonts/.keep", []),
    ("Procfile.dev", Template.procfile) ]

/-- The generated entries that a lean project does without. -/
def dispensable : List Text :=
  [ ".github",
    "app/models",
    "app/javascript/controllers/hello_controller.js",
    "config/environments/production.rb",
    "config/environments/test.rb",
    "lib",
    "public",
    "script" ]

/-- Writes a generated file, with the folders above it. -/
def place (path content : Text) : Edit Unit := do
  match Path.parent? path with
  | some parent => Edit.makeFolders parent
  | none => pure ()
  Edit.change ("Failed to write file: " ++ path) (·.write path (.text content))

/-- Writes a generated file unless something is there. -/
def placeNew (path what content : Text) : Edit Unit := do
  if ← Edit.ask (·.holds path) then Edit.fail (.alreadyExists what path)
  place path content

/-- Removes a file; tells whether there was one. -/
def discard (path : Text) : Edit Bool := do
  match (← get).removeFile path with
  | .ok disk =>
    set disk
    return true
  | .error .missing => return false
  | .error fault => throw ⟨["Failed to remove " ++ path], .system fault⟩

/-- Writes given files into a project. -/
def placeAll (project : Text) (files : List (Text × Text)) : Edit (List Text) :=
  files.mapM fun (path, content) => do
    place (Path.join project path) content
    return path

/-- Writes the skeleton into a project; answers the paths written. -/
def apply (project : Text) : Edit (List Text) := placeAll project files

/-- Removes an entry of a project; tells whether there was one. -/
def clear (project entry : Text) : Edit Bool := do
  let path := Path.join project entry
  if ← Edit.ask (·.isFolder path) then
    Edit.removeTree ("Failed to remove " ++ path) path
    return true
  else if ← Edit.ask (·.holds path) then
    Edit.change ("Failed to remove " ++ path) (·.removeFile path)
    return true
  else return false

/-- Removes the dispensable entries of a project; answers those removed. -/
def trim (project : Text) : Edit (List Text) := dispensable.filterM (clear project ·)

end SiteScaffold.Blueprint

/-
Layouts. A layout is a file of its own and a directive of the home controller,
which sets it for one view. No view has two layouts.
-/
import SiteScaffold.Command.Basic

namespace SiteScaffold.Command.Layout

open Patch

/-- The view that a new layout is for: the one asked for, else the one of the
same name, else one that the operator chooses. -/
def viewFor (layout : Text) (views : List Text) (asked : Option Text) (assumeYes : Bool) :
    Work Text := do
  match asked with
  | some raw =>
    let view := Name.normalize raw
    if view ∈ views then return view
    else Work.fail (.notFound "View" ("app/views/home/" ++ view ++ ".html.erb"))
  | none =>
    if layout ∈ views then
      Work.info ("Matching view found: " ++ layout ++ ".html.erb")
      return layout
    else if views = [] then
      Work.fail (.precondition "No view files found in app/views/home.")
    else if assumeYes then
      Work.fail (.usage ("No view named '" ++ layout ++ "'. Pass --view to choose one of: "
        ++ Text.join ", " views))
    else
      match ← Work.chooses "Which view will this layout be used with?" views with
      | some view => return view
      | none => Work.fail .interrupted

/-- Puts the directive of a layout into the controller; one that is there
already is only warned about. -/
def declareLayout (controller layout view : Text) : Work Unit := do
  let declared := HostFile.insert controller (.layout layout view homeClass)
  let outcome ← tryCatch (some <$> Work.edit declared) fun failure => do
    if failure.cause.isSoft then
      Work.warning failure.cause.message
      return none
    else throw failure
  match outcome with
  | some outcome =>
    reportPatch outcome ("HomeController uses '" ++ layout ++ "' for '" ++ view ++ "'")
      ("HomeController already declares '" ++ layout ++ "'")
  | none => return

/-- Adds a layout to the project in a folder. -/
def add (folder name : Text) (asked : Option Text) (assumeYes : Bool) :
    Work Outcome := do
  let project ← Project.open folder
  let layout := Name.normalize name
  Work.intro ("Creating layout: " ++ layout)
  let file := project.layout layout
  if ← Edit.ask (·.holds file) then Work.fail (.alreadyExists "Layout" file)
  let views ← project.homeViews
  let view ← viewFor layout views asked assumeYes
  match ← layoutFor? project.homeController view with
  | some present =>
    Work.fail (.conflict ("A layout is already defined for the '" ++ view ++ "' view: '"
      ++ present ++ "'.\nRemove it first: rails-frontend remove-layout " ++ present))
  | none => pure ()
  let title ← project.applicationTitle
  Blueprint.placeNew file "Layout" (Template.layout layout title)
  Work.success ("Created " ++ project.shown file)
  declareLayout project.homeController layout view
  Work.outro ("Layout '" ++ layout ++ "' will be used for " ++ view ++ ".html.erb")
  return .completed

/-- Removes a layout from the project in a folder. -/
def remove (folder name : Text) (assumeYes : Bool) : Work Outcome := do
  let project ← Project.open folder
  let layout := Name.normalize name
  Work.intro ("Removing layout: " ++ layout)
  let file := project.layout layout
  if !(← Edit.ask (·.holds file)) then Work.fail (.notFound "Layout" (project.shown file))
  if !(← confirmed assumeYes ("Delete the '" ++ layout ++ "' layout?")) then return ← decline
  reportPatch (← HostFile.remove project.homeController (.layout layout [] homeClass))
    ("Removed layout '" ++ layout ++ "' from HomeController")
    ("HomeController does not declare '" ++ layout ++ "'")
  let _ ← Blueprint.discard file
  Work.success ("Deleted " ++ project.shown file)
  Work.outro "Layout removed"
  return .completed

end SiteScaffold.Command.Layout

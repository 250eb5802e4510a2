/-
Pages. A page has four parts: a view, a stylesheet, an action of the home
controller and a route. Adding it makes the parts that are missing; removing it
removes them all.
-/
import SiteScaffold.Command.Basic

namespace SiteScaffold.Command.Page

open Patch

/-- Adds a page to the project in a folder. -/
def add (folder name : Text) : Work Outcome := do
  let project ← Project.open folder
  let page := Name.normalize name
  Work.intro ("Adding page: " ++ page)
  let view := project.view page
  Blueprint.placeNew view "View" (Template.pageView page)
  Work.success ("Created " ++ project.shown view)
  let stylesheet := project.stylesheet page
  if ← Edit.ask (·.holds stylesheet) then
    Work.warning ("Kept existing " ++ project.shown stylesheet)
  else
    Blueprint.placeNew stylesheet "Stylesheet" (Template.pageStylesheet page)
    Work.success ("Created " ++ project.shown stylesheet)
  reportPatch (← HostFile.insert project.homeController (.action page))
    ("Added action '" ++ page ++ "' to HomeController")
    ("HomeController already defines '" ++ page ++ "'")
  reportPatch (← HostFile.insert project.routes (.route page page))
    ("Added route /" ++ page)
    ("Route /" ++ page ++ " already exists")
  Work.outro ("Page URL: /" ++ page)
  return .completed

/-- The pages that a project cannot do without. -/
def permanentPages : List Text := ["home", "index"]

/-- Removes a page from the project in a folder. -/
def remove (folder name : Text) (assumeYes : Bool) : Work Outcome := do
  let project ← Project.open folder
  let page := Name.normalize name
  Work.intro ("Removing page: " ++ page)
  if page ∈ permanentPages then
    Work.fail (.conflict "The home page (home/index) cannot be removed.")
  let view := project.view page
  if !(← Edit.ask (·.holds view)) then Work.fail (.notFound "Page" page)
  if !(← confirmed assumeYes ("Delete the '" ++ page ++ "' page?")) then return ← decline
  let _ ← Blueprint.discard view
  Work.success ("Deleted " ++ project.shown view)
  let stylesheet := project.stylesheet page
  if ← Blueprint.discard stylesheet then
    Work.success ("Deleted " ++ project.shown stylesheet)
  reportPatch (← HostFile.remove project.homeController (.action page))
    ("Removed action '" ++ page ++ "' from HomeController")
    ("HomeController has no action '" ++ page ++ "'")
  reportPatch (← HostFile.remove project.routes (.route page page))
    ("Removed route /" ++ page)
    ("No route /" ++ page ++ " to remove")
  Work.outro "Page removed"
  return .completed

end SiteScaffold.Command.Page

/-
Stimulus controllers, each a file of its own. Before one is removed, the views
that still use it are listed.
-/
import SiteScaffold.Command.Basic

namespace SiteScaffold.Command.Stimulus

/-- Adds a Stimulus controller to the project in a folder. -/
def add (folder name : Text) : Work Outcome := do
  let project ← Project.open folder
  let controller := Name.normalize name
  Work.intro ("Creating Stimulus controller: " ++ controller)
  let file := project.stimulus controller
  Blueprint.placeNew file "Stimulus controller" (Template.stimulusController controller)
  Work.success ("Created " ++ project.shown file)
  Work.outro ("Attach it with data-controller=\"" ++ Name.stimulusIdentifier controller ++ "\"")
  return .completed

/-- Removes a Stimulus controller from the project in a folder. -/
def remove (folder name : Text) (assumeYes : Bool) : Work Outcome := do
  let project ← Project.open folder
  let controller := Name.normalize name
  Work.intro ("Removing Stimulus controller: " ++ controller)
  let file := project.stimulus controller
  if !(← Edit.ask (·.holds file)) then
    Work.fail (.notFound "Stimulus controller" (project.shown file))
  reportUsages project "controller" (← Usage.find project.root (Usage.stimulus controller))
  if !(← confirmed assumeYes ("Delete the '" ++ controller ++ "' Stimulus controller?")) then
    return ← decline
  let _ ← Blueprint.discard file
  Work.success ("Deleted " ++ project.shown file)
  Work.outro "Stimulus controller removed"
  return .completed

end SiteScaffold.Command.Stimulus

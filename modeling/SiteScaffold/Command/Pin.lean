/-
Pins of packages. They are kept by a tool of the project, which is asked to add
or to drop one; whether a package is pinned is read off its file.
-/
import SiteScaffold.Command.Basic

namespace SiteScaffold.Command.Pin

/-- The pin manager of a project, which has to be there. -/
def pinManager (project : Project) : Work Tool := do
  let tool := Tool.importmap project.root
  if ← tool.isInstalled (← read).launcher (← read).here then return tool
  else
    Work.fail (.precondition
      "bin/importmap not found. This project may not be using importmap.")

/-- What in the output of the pin manager tells that it did not pin. -/
def pinFailureMarks : List Text := ["Couldn't find", "error", "Error"]

/-- Pins a package in the project in a folder. -/
def add (folder package : Text) : Work Outcome := do
  let project ← Project.open folder
  Work.intro ("Adding importmap pin: " ++ package)
  let tool ← pinManager project
  if ← project.isPinned package then
    Work.fail (.conflict ("'" ++ package ++ "' is already pinned in config/importmap.rb"))
  Work.report .started ("Pinning " ++ package ++ "...")
  let captured ← tool.capture (← read).launcher ["pin", package] project.root
  if !captured.success || pinFailureMarks.any (Text.contains captured.output ·) then
    Work.report .finished ("Could not pin " ++ package)
    Work.fail (.toolFailed tool.displayName (Text.trim captured.output))
  Work.report .finished ("Pinned " ++ package)
  Work.outro ("Don't forget to import '" ++ package ++ "' in your JavaScript")
  return .completed

/-- Drops the pin of a package in the project in a folder. -/
def remove (folder package : Text) (assumeYes : Bool) : Work Outcome := do
  let project ← Project.open folder
  Work.intro ("Removing importmap pin: " ++ package)
  let tool ← pinManager project
  if !(← project.isPinned package) then Work.fail (.notFound "Pin" package)
  reportUsages project "package" (← Usage.find project.root (Usage.pin package))
  if !(← confirmed assumeYes ("Unpin '" ++ package ++ "'?")) then return ← decline
  let captured ← tool.capture (← read).launcher ["unpin", package] project.root
  if !captured.success then
    Work.fail (.toolFailed tool.displayName (Text.trim captured.output))
  Work.success ("Unpinned " ++ package)
  Work.outro "Pin removed"
  return .completed

end SiteScaffold.Command.Pin

/-
Carrying out a request.
-/
import SiteScaffold.Command.Page
import SiteScaffold.Command.Stimulus
import SiteScaffold.Command.Layout
import SiteScaffold.Command.Pin
import SiteScaffold.Command.Generation
import SiteScaffold.Command.StaticSite

namespace SiteScaffold.Command

/-- Starts the development server of the project in a folder, in place of this
program. A launcher that names no interpreter is a script for the system's shell. -/
def runServer (folder : Text) : Work Outcome := do
  let project ← Project.open folder
  let tool := Tool.devServer project.root
  if !(← tool.isInstalled (← read).launcher (← read).here) then
    Work.fail (.precondition "bin/dev not found. Is this a Rails 7+ project?")
  Work.intro "Starting Rails server"
  Work.outro "Use Ctrl+C to stop"
  let shell := "/bin/sh"
  let ending ← match ← Work.launch ⟨tool.program, [], project.root⟩ with
    | .error .notExecutable => Work.launch ⟨shell, [tool.program], project.root⟩
    | ending => pure ending
  match ending with
  | .ok ending => return .replaced ending
  | .error fault => Work.fail (tool.notStarted fault)

/-- Carries out a request. -/
def perform (request : Request) : Work Outcome :=
  match request.command with
  | .new name bare => Generation.create request.folder name bare request.assumeYes
  | .addPage name => Page.add request.folder name
  | .removePage name => Page.remove request.folder name request.assumeYes
  | .addStimulus name => Stimulus.add request.folder name
  | .removeStimulus name => Stimulus.remove request.folder name request.assumeYes
  | .addLayout name view => Layout.add request.folder name view request.assumeYes
  | .removeLayout name => Layout.remove request.folder name request.assumeYes
  | .addPin package => Pin.add request.folder package
  | .removePin package => Pin.remove request.folder package request.assumeYes
  | .run => runServer request.folder
  | .build zip => StaticSite.build request.folder zip request.assumeYes
  | .version => do
    let product := (← read).product
    Work.print (product.name ++ " " ++ product.version ++ "\n")
    return .completed

end SiteScaffold.Command

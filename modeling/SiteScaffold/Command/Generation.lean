/-
New projects. The project generator makes one; the skeleton of the frontend is
written over it, the shell is put around its pages, and its root is set.
-/
import SiteScaffold.Command.Basic

namespace SiteScaffold.Command.Generation

open Patch

/-- What the project generator is asked to leave out of a lean project. -/
def omissions : List Text :=
  [ "--skip-test",
    "--skip-system-test",
    "--skip-action-mailer",
    "--skip-action-mailbox",
    "--skip-action-text",
    "--skip-active-job",
    "--skip-action-cable",
    "--skip-active-storage",
    "--skip-active-record",
    "--skip-solid",
    "--skip-kamal",
    "--skip-docker" ]

/-- What the project generator is asked. -/
def generatorArgs (name : Text) (bare : Bool) : List Text :=
  let stack : List Text := ["new", name, "--css=tailwind", "--javascript=importmap"]
  if bare then stack ++ omissions else stack

/-- The installation of the project generator, which has to be recent
enough. -/
def checkRails (assumeYes : Bool) : Work Version.Installation := do
  let launcher := (← read).launcher
  let here := (← read).here
  let found ← Tool.findRails launcher here
  match found.supported Version.leastSupported with
  | .ok found => return found
  | .error cause =>
    if !(← Tool.rails.isInstalled launcher here) then offerDocs assumeYes Tool.rails
    Work.fail cause

/-- What is done to a generated project. -/
def furnish (target : Text) (bare : Bool) : Work Unit := do
  if bare then
    let removed ← Blueprint.trim target
    Work.success ("Removed " ++ Text.ofNat removed.length ++ " unneeded entries: "
      ++ Text.join ", " removed)
  let written ← Blueprint.apply target
  Work.success ("Created " ++ Text.ofNat written.length ++ " frontend files")
  let project : Project := ⟨target⟩
  let layoutName := "app/views/layouts/application.html.erb"
  reportPatch (← HostFile.insert project.applicationLayout .shell)
    ("Updated " ++ layoutName)
    (layoutName ++ " already renders the shared shell")
  reportPatch (← HostFile.insert project.routes (.rootRoute "index"))
    "Root route set to home#index"
    "Root route already points to home#index"

/-- The steps, numbered, one to a line. -/
def numbered (steps : List Text) : Text :=
  (steps.zipIdx 1).flatMap fun (step, i) => "  " ++ Text.ofNat i ++ ".  " ++ step ++ "\n"

/-- Makes a project in a folder. -/
def create (folder name : Text) (bare assumeYes : Bool) : Work Outcome := do
  let product := (← read).product
  Work.intro (product.displayName ++ ": new project " ++ name)
  let target := Path.join folder name
  if ← Edit.ask (·.holds target) then Work.fail (.alreadyExists "Directory" target)
  let found ← checkRails assumeYes
  match found.version with
  | some present => Work.success (found.name ++ " " ++ present.text ++ " installed")
  | none => pure ()
  Work.runShown Tool.rails (generatorArgs name bare) folder
  Work.success "Rails project created"
  furnish target bare
  Work.print ("\n  Next steps\n\n" ++ numbered (product.nextSteps target))
  Work.outro ("Project created in " ++ target ++ "\n   Docs: " ++ product.docs)
  return .completed

end SiteScaffold.Command.Generation

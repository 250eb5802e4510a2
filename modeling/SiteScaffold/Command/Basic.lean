/-
Commands: what an operator may ask for, how a command ends, and what several
commands do in the same way.
-/
import SiteScaffold.Session
import SiteScaffold.Usage
import SiteScaffold.Patch.HostFile
import SiteScaffold.Blueprint

namespace SiteScaffold

/-- A command with its arguments, as the operator wrote them. -/
inductive Command where
  | new (name : Text) (bare : Bool)
  | addPage (name : Text)
  | removePage (name : Text)
  | addStimulus (name : Text)
  | removeStimulus (name : Text)
  | addLayout (name : Text) (view : Option Text)
  | removeLayout (name : Text)
  | addPin (package : Text)
  | removePin (package : Text)
  | run
  | build (zip : Bool)
  | version
  deriving Repr, DecidableEq

namespace Command

/-- A command given in a folder, with or without the wish that every question
be answered with yes. -/
structure Request where
  command : Command
  folder : Text
  assumeYes : Bool
  deriving Repr, DecidableEq

/-- How a command ends. -/
inductive Outcome where
  | completed
  /-- The operator declined. -/
  | cancelled
  /-- Another program took the place of this one. -/
  | replaced (ending : Ending)
  deriving Repr, DecidableEq

/-- Whether the operator agrees, or agreed beforehand. -/
def confirmed (assumeYes : Bool) (question : Text) : Work Bool := do
  if assumeYes then
    Work.info (question ++ " yes (--yes)")
    return true
  else Work.agrees question

/-- Ends a command that the operator declined. -/
def decline : Work Outcome := do
  Work.report .cancelled "Operation cancelled."
  return .cancelled

/-- Reports what patching did. -/
def reportPatch (outcome : Patch.Outcome) (applied unchanged : Text) : Work Unit :=
  match outcome with
  | .applied => Work.success applied
  | .unchanged => Work.info unchanged

/-- Reports the files that still refer to something. -/
def reportUsages (project : Project) (what : Text) (usages : List Text) : Work Unit :=
  if usages = [] then Work.info ("No usage of this " ++ what ++ " found")
  else
    let files := usages.map fun path => "  - ".toList ++ project.shown path
    Work.warning ("This " ++ what ++ " is used in the following files:\n" ++ Text.join "\n" files)

/-- Offers the documentation of a tool that is missing, if it is known. -/
def offerDocs (assumeYes : Bool) (tool : Tool) : Work Unit := do
  match tool.docs with
  | none => return
  | some address =>
    if assumeYes then return
    let question := tool.displayName ++ " is not available. Open its documentation ("
      ++ address ++ ")?"
    if ← Work.agrees question then Work.openAddress address

end Command

end SiteScaffold

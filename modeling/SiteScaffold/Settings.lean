/-
Settings of the export, as a project may keep them in a file of its own. Every
setting has a default, and so has the file.
-/
import SiteScaffold.Yaml.Event
import SiteScaffold.Export.OutputFolder
import SiteScaffold.Edit

namespace SiteScaffold

/-- The settings of the export: where it goes, where the server leaves its
process number, and the program that crawls the site. -/
structure Settings where
  outputFolder : Text := "build"
  pidFile : Text := "tmp/pids/server.pid"
  crawler : Text := "wget"
  deriving Repr, DecidableEq

namespace Settings

open Yaml

/-- Anchored nodes, each as the events from its first on, by number. -/
abbrev Anchored := List (Nat × List Event)

/-- The anchored nodes among events, the last first. -/
def anchored : List Event → Anchored
  | [] => []
  | event :: rest =>
    match event with
    | .scalar (some n) _ _ | .sequence (some n) | .mapping (some n) =>
      anchored rest ++ [(n, event :: rest)]
    | _ => anchored rest

/-- The events of a node, reached through an alias or not. -/
def target (nodes : Anchored) (events : List Event) : List Event :=
  match events with
  | .alias n :: _ => (nodes.lookup n).getD []
  | _ => events

/-- The events after `depth` collections have ended. -/
def afterEnds : (depth : Nat) → List Event → List Event
  | 0, events => events
  | _, [] => []
  | depth + 1, event :: rest =>
    match event with
    | .sequence _ | .mapping _ => afterEnds (depth + 2) rest
    | .sequenceEnd | .mappingEnd => afterEnds depth rest
    | _ => afterEnds (depth + 1) rest

/-- The events after the node that starts here. -/
def afterNode : List Event → List Event
  | [] => []
  | .sequence _ :: rest | .mapping _ :: rest => afterEnds 1 rest
  | _ :: rest => rest

/-- The text of a scalar. -/
def text? (nodes : Anchored) (events : List Event) : Option Text :=
  match target nodes events with
  | .scalar _ t _ :: _ => some t
  | _ => none

/-- The keys of a mapping, each with the events from its value on; at most
`fuel` are read. Keys have to be scalars. -/
def pairsFrom (fuel : Nat) (nodes : Anchored) (events : List Event) :
    Option (List (Text × List Event)) :=
  match fuel, events with
  | 0, _ | _, [] => none
  | _, .mappingEnd :: _ => some []
  | fuel + 1, key :: rest => do
    let name ← text? nodes (key :: rest)
    let more ← pairsFrom fuel nodes (afterNode rest)
    return (name, rest) :: more

/-- The keys and values of a mapping; a node that is not written counts as an
empty one. -/
def pairs? (nodes : Anchored) (events : List Event) : Option (List (Text × List Event)) :=
  match target nodes events with
  | .mapping _ :: rest => pairsFrom rest.length nodes rest
  | .scalar _ [] true :: _ => some []
  | _ => none

/-- The value of a key that may stand once. -/
def field? (name : Text) (pairs : List (Text × List Event)) : Option (Option (List Event)) :=
  match pairs.filter (·.1 = name) with
  | [] => some none
  | [(_, value)] => some (some value)
  | _ => none

/-- The text of a key that may stand once, or its default. -/
def setting? (nodes : Anchored) (pairs : List (Text × List Event)) (name fallback : Text) :
    Option Text := do
  match ← field? name pairs with
  | some value => text? nodes value
  | none => return fallback

/-- The settings that events spell out. -/
def ofEvents? (events : List Event) : Option Settings := do
  let nodes := anchored events
  let top ← pairs? nodes events
  match ← field? "build" top with
  | none => return {}
  | some value =>
    let build ← pairs? nodes value
    let defaults : Settings := {}
    return {
      outputFolder := ← setting? nodes build "output_dir" defaults.outputFolder
      pidFile := ← setting? nodes build "pid_file" defaults.pidFile
      crawler := ← setting? nodes build "mirror_tool" defaults.crawler }

/-- The settings in a text; the defaults if it holds none. -/
def ofText? (t : Text) : Option Settings := do
  if Text.trim t = [] then return {}
  match ← Event.ofText? t with
  | [] => return {}
  | events => ofEvents? events

/-- The settings of a project; the defaults if it has no file of them. -/
def load (root file : Text) : Edit Settings := do
  let path := Path.join root file
  if !(← Edit.ask (·.holds path)) then return {}
  let content ← Edit.readText path
  match ofText? content with
  | none => Edit.fail (.precondition ("Invalid " ++ path))
  | some settings =>
    match Export.checkOutputFolder settings.outputFolder with
    | .ok () => return settings
    | .error cause => Edit.during ("Invalid " ++ path) (Edit.fail cause)

end Settings

end SiteScaffold

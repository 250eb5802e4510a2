/-
External tools: the project generator, the crawler, the manager of pins and the
launcher of the development server. How a program runs is not known here; a
launcher is any function that answers what a program did to the disk and how it
ended.
-/
import SiteScaffold.Edit
import SiteScaffold.Version

namespace SiteScaffold

/-- How a program ended: with an exit code unless it was killed, and with what
it wrote. -/
structure Ending where
  code : Option Nat
  stdout : Bytes
  stderr : Bytes
  deriving Repr, DecidableEq

/-- Whether the program reported success. -/
def Ending.success (ending : Ending) : Bool := ending.code = some 0

/-- A request to run a program in a folder. -/
structure Invocation where
  program : Text
  args : List Text
  folder : Text
  deriving Repr, DecidableEq

/-- Runs programs: a program that starts changes the disk and ends, one that
cannot be started leaves a fault. -/
abbrev Launcher := Invocation → Disk → Except Fault Ending × Disk

/-- An external tool: the program, its name for the operator, and where its
documentation is found, if that is known. -/
structure Tool where
  program : Text
  displayName : Text
  docs : Option Text
  deriving Repr, DecidableEq

/-- What a captured run of a tool answers. -/
structure Captured where
  success : Bool
  code : Option Nat
  output : Text
  deriving Repr, DecidableEq

namespace Tool

/-- The project generator. -/
def rails : Tool :=
  ⟨"rails", "Rails", some "https://guides.rubyonrails.org/install_ruby_on_rails.html"⟩

/-- The crawler. -/
def crawler (program : Text) : Tool :=
  let name := (Path.fileName? program).getD program
  ⟨program, name,
    if name = "wget" then some "https://www.gnu.org/software/wget/" else none⟩

/-- The pin manager of a project. -/
def importmap (root : Text) : Tool :=
  ⟨Path.join root "bin/importmap", "importmap", some "https://github.com/rails/importmap-rails"⟩

/-- The launcher of a project's development server. -/
def devServer (root : Text) : Tool :=
  ⟨Path.join root "bin/dev", "bin/dev",
    some "https://guides.rubyonrails.org/command_line.html"⟩

/-- The failure to find documentation that is not known. -/
def unknownDocs (tool : Tool) : Cause :=
  .other ("No documentation link is known for " ++ tool.displayName)

/-- Runs a program. -/
def launch (launcher : Launcher) (invocation : Invocation) : Edit (Except Fault Ending) := do
  let (ending, disk) := launcher invocation (← get)
  set disk
  return ending

/-- Whether the tool is there: as a file if it is given by a path, else among
the commands. -/
def isInstalled (tool : Tool) (launcher : Launcher) (folder : Text) : Edit Bool := do
  if '/' ∈ tool.program then
    Edit.ask (·.isFile (Path.join folder tool.program))
  else
    match ← launch launcher ⟨"which", [tool.program], folder⟩ with
    | .ok ending => return ending.success
    | .error _ => return false

/-- The banner a tool prints with its version, if it prints one. -/
def banner (tool : Tool) (launcher : Launcher) (folder : Text) : Edit (Option Text) := do
  match ← launch launcher ⟨tool.program, ["--version"], folder⟩ with
  | .ok ending =>
    return if ending.success then (Utf8.decode? ending.stdout).map Text.trim else none
  | .error _ => return none

/-- The installation of the project generator. -/
def findRails (launcher : Launcher) (folder : Text) : Edit Version.Installation :=
  return .ofBanner rails.displayName (← rails.banner launcher folder)

/-- The failure to start a tool. -/
def notStarted (tool : Tool) (fault : Fault) : Cause :=
  .toolFailed tool.displayName
    ("could not start '" ++ tool.program ++ "': " ++ fault.message)

/-- Runs a tool and collects what it writes, its standard output first. -/
def capture (tool : Tool) (launcher : Launcher) (args : List Text) (folder : Text) :
    Edit Captured := do
  match ← launch launcher ⟨tool.program, args, folder⟩ with
  | .ok ending =>
    return ⟨ending.success, ending.code,
      Utf8.decodeLenient ending.stdout ++ Utf8.decodeLenient ending.stderr⟩
  | .error fault => Edit.fail (tool.notStarted fault)

end Tool

end SiteScaffold

/-
The development server: found through the file in which it leaves its process
number, provided that the process is alive.
-/
import SiteScaffold.Tool

namespace SiteScaffold.Export

open Pattern

/-- The address a server listens at; its port is captured. -/
def listenAddress : Pattern :=
  "tcp://" ++ oneOrMore (fun c => c ≠ ':' && !Text.isBlank c) ++ ":"
    ++ capture 1 (oneOrMore Text.isDigit)

/-- The largest port. -/
def largestPort : Nat := 65535

/-- The port in the first address that a command line shows. -/
def listenPort? (commandLine : Text) : Option Nat := do
  let (_, hit, _) ← listenAddress.first? commandLine
  Text.decimal? largestPort (hit.group 1)

/-- The port of a server whose command line shows none. -/
def defaultPort : Nat := 3000

/-- A live server. -/
structure Server where
  pid : Nat
  port : Nat
  deriving Repr, DecidableEq

/-- The command line of a live process. -/
def commandLine? (launcher : Launcher) (folder : Text) (pid : Nat) : Edit (Option Text) := do
  match ← Tool.launch launcher ⟨"ps", ["-p", Text.ofNat pid, "-o", "args="], folder⟩ with
  | .error _ => return none
  | .ok ending =>
    let line := Text.trim (Utf8.decodeLenient ending.stdout)
    return if ending.success && line ≠ [] then some line else none

/-- The process number that a pid file holds. -/
def pidIn? (path : Text) (disk : Disk) : Option Nat := do
  let content ← (disk.readText path).toOption
  Text.signedDecimal? (Nat.pow 2 32 - 1) (Text.trim content)

/-- The live server that a pid file of the project points to. Processes are
asked after from the folder `here`. -/
def findServer (launcher : Launcher) (here root pidFile : Text) : Edit Server := do
  match ← Edit.ask (pidIn? (Path.join root pidFile)) with
  | none => Edit.fail (.serverNotRunning pidFile)
  | some pid =>
    match ← commandLine? launcher here pid with
    | none => Edit.fail (.serverNotRunning pidFile)
    | some line => return ⟨pid, (listenPort? line).getD defaultPort⟩

end SiteScaffold.Export

/-
Why a request could not be carried out. A failure is a cause together with what
was being done when it arose, the widest description first; its message strings
them together.
-/
import SiteScaffold.Disk.Fault

namespace SiteScaffold

/-- The cause of a failure. -/
inductive Cause where
  /-- The command line is incomplete or malformed. -/
  | usage (text : Text)
  /-- The folder holds no project. -/
  | notAProject (folder : Text)
  /-- A required file, tool or setting is absent or unusable. -/
  | precondition (text : Text)
  /-- No live server stands behind the pid file. -/
  | serverNotRunning (pidFile : Text)
  /-- The file to be generated is already there. -/
  | alreadyExists (what path : Text)
  /-- The request collides with the state of the project. -/
  | conflict (text : Text)
  /-- The thing to be removed is not there. -/
  | notFound (what target : Text)
  /-- The layout is already declared in the file. -/
  | directiveConflict (layout path : Text)
  /-- The text that an insertion is placed by is not in the file. -/
  | anchorMissing (anchor path : Text)
  /-- An external tool could not be run, or reported failure. -/
  | toolFailed (tool output : Text)
  /-- A folder could not be walked. -/
  | walk (folder : Text) (fault : Fault)
  /-- The system reported a fault. -/
  | system (fault : Fault)
  /-- No terminal is there to ask the operator. -/
  | noTerminal
  /-- The operator left a question unanswered. -/
  | interrupted
  /-- Any other cause, in words. -/
  | other (text : Text)
  deriving Repr, DecidableEq

namespace Cause

/-- A cause in words. -/
def message : Cause → Text
  | usage text => text
  | notAProject folder =>
    "This directory is not a Rails project: " ++ folder
      ++ "\nRun the command inside a Rails project "
      ++ "(config/routes.rb and Gemfile are required)."
  | precondition text => text
  | serverNotRunning pidFile =>
    "Rails server is not running (no live process behind " ++ pidFile
      ++ ").\nStart it first with 'rails-frontend run'."
  | alreadyExists what path => what ++ " already exists: " ++ path
  | conflict text => text
  | notFound what target => what ++ " not found: " ++ target
  | directiveConflict layout path =>
    "Layout directive '" ++ layout ++ "' already exists in " ++ path
  | anchorMissing anchor path => "Could not find " ++ anchor ++ " in " ++ path
  | toolFailed tool output => tool ++ " failed:\n" ++ output
  | walk folder fault =>
    "IO error for operation on " ++ folder ++ ": " ++ fault.message ++ ": " ++ fault.message
  | system fault => fault.message
  | noTerminal => "not connected"
  | interrupted => "operation interrupted"
  | other text => text

/-- Whether the cause concerns one step of a command only, so that the command
may go on. -/
def isSoft : Cause → Bool
  | directiveConflict _ _ => true
  | _ => false

end Cause

/-- A cause, and what was being done when it arose. -/
structure Failure where
  context : List Text
  cause : Cause
  deriving Repr, DecidableEq

namespace Failure

/-- A failure in words. -/
def message (failure : Failure) : Text :=
  Text.join ": " (failure.context ++ [failure.cause.message])

/-- The failure as part of a wider activity. -/
def within (failure : Failure) (doing : Text) : Failure :=
  { failure with context := doing :: failure.context }

end Failure

end SiteScaffold

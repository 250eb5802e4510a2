/-
A session: a disk to work on and an operator to report to. The operator may be
asked, if there is a terminal; what was reported, printed and asked is kept in
the order in which it happened.
-/
import SiteScaffold.Tool

namespace SiteScaffold

/-- How a report is presented. -/
inductive Manner where
  | intro
  | success
  | info
  | warning
  | outro
  | cancelled
  | started
  | finished
  | answered
  | escaped
  deriving Repr, DecidableEq

/-- What the operator is told. -/
structure Report where
  manner : Manner
  text : Text
  deriving Repr, DecidableEq

/-- What the operator does at a question. -/
inductive Answer where
  | confirm (yes : Bool)
  | choose (index : Nat)
  | escape
  deriving Repr, DecidableEq

/-- The product that the commands belong to. -/
structure Product where
  name : Text
  displayName : Text
  version : Text
  docs : Text
  settingsFile : Text
  /-- What to do next in a project that was made in a folder. -/
  nextSteps : Text → List Text

/-- What a session may rely on: the way programs are run, the folder it was
started in, and the product. -/
structure Setting where
  launcher : Launcher
  here : Text
  product : Product

/-- The state of a session. Without a terminal there are no answers to come;
`opened` are the addresses the operator wanted to see. -/
structure Session where
  disk : Disk
  answers : Option (List Answer)
  reports : List Report
  stdout : Text
  stderr : Text
  opened : List Text

namespace Session

/-- A session that has not begun. -/
def start (disk : Disk) (answers : Option (List Answer)) : Session :=
  ⟨disk, answers, [], [], [], []⟩

end Session

/-- A part of a session, which may fail. -/
abbrev Work := ReaderT Setting (ExceptT Failure (StateM Session))

namespace Work

/-- The outcome of a part of a session, and the state it leaves. -/
def on {α : Type} (work : Work α) (setting : Setting) (session : Session) :
    Except Failure α × Session :=
  work setting session

/-- Gives up. -/
def fail {α : Type} (cause : Cause) : Work α := throw ⟨[], cause⟩

/-- Works on the disk. -/
def edit {α : Type} (change : Edit α) : Work α := do
  let session ← get
  let (outcome, disk) := change.on session.disk
  set { session with disk }
  match outcome with
  | .ok answer => return answer
  | .error failure => throw failure

-- ======================================================= reporting

/-- Tells the operator something. -/
def report (manner : Manner) (text : Text) : Work Unit :=
  modify fun s => { s with reports := s.reports ++ [⟨manner, text⟩] }

def intro (text : Text) : Work Unit := report .intro text

def success (text : Text) : Work Unit := report .success text

def info (text : Text) : Work Unit := report .info text

def warning (text : Text) : Work Unit := report .warning text

def outro (text : Text) : Work Unit := report .outro text

/-- Prints to standard output. -/
def print (text : Text) : Work Unit := modify fun s => { s with stdout := s.stdout ++ text }

/-- Prints to standard error. -/
def printError (text : Text) : Work Unit := modify fun s => { s with stderr := s.stderr ++ text }

-- ========================================================== asking

/-- What the operator does at a question. -/
def ask (question : Text) : Work Answer := do
  let session ← get
  match session.answers with
  | none | some [] => fail .noTerminal
  | some (answer :: answers) =>
    set { session with answers := some answers }
    match answer with
    | .escape =>
      report .escaped question
      fail .interrupted
    | _ =>
      report .answered question
      return answer

/-- Whether the operator agrees. -/
def agrees (question : Text) : Work Bool := do
  match ← ask question with
  | .confirm yes => return yes
  | _ => return false

/-- The item of a list that the operator chooses. -/
def chooses (question : Text) (items : List Text) : Work (Option Text) := do
  match ← ask question with
  | .choose index => return items[index]?
  | _ => return none

-- =========================================================== tools

/-- Runs a program. -/
def launch (invocation : Invocation) : Work (Except Fault Ending) := do
  edit (Tool.launch (← read).launcher invocation)

/-- Shows the operator an address. -/
def openAddress (address : Text) : Work Unit :=
  modify fun s => { s with opened := s.opened ++ [address] }

/-- Bytes cut into lines, without the newlines that end them, or carriage
returns and newlines. -/
def byteLines (bytes : Bytes) : List Bytes :=
  let pieces := bytes.foldr (fun (b : UInt8) (pieces : List Bytes) =>
    if b = 10 then [b] :: pieces
    else
      match pieces with
      | [] => [[b]]
      | piece :: pieces => (b :: piece) :: pieces) []
  pieces.map fun line =>
    match line.reverse with
    | 10 :: 13 :: back | 10 :: back => back.reverse
    | _ => line

/-- What is shown of a program's output: its lines, indented, up to the first
that is no text, and the fault of that one. `shown` are the lines shown before,
the last first. -/
def relayedAfter (shown : List Text) : List Bytes → Text × Option Utf8.Fault
  | [] => (shown.reverse.flatten, none)
  | line :: lines =>
    match Utf8.decode line with
    | .error fault => (shown.reverse.flatten, some fault)
    | .ok text => relayedAfter (("  " ++ text ++ "\n") :: shown) lines

/-- What is shown of a program's output, and the fault that cuts it short. -/
def relayed (output : Bytes) : Text × Option Utf8.Fault := relayedAfter [] (byteLines output)

/-- Runs a tool and shows what it writes, line by line. -/
def runShown (tool : Tool) (args : List Text) (folder : Text) : Work Unit := do
  print ("\nRunning: " ++ tool.program ++ " " ++ Text.join " " args ++ "\n\n")
  match ← launch ⟨tool.program, args, folder⟩ with
  | .error fault => fail (tool.notStarted fault)
  | .ok ending =>
    let (out, outFault) := relayed ending.stdout
    let (err, errFault) := relayed ending.stderr
    print out
    if let some fault := outFault then
      printError ("Error reading stdout: " ++ fault.message ++ "\n")
    printError err
    if let some fault := errFault then
      printError ("Error reading stderr: " ++ fault.message ++ "\n")
    print "\n"
    if !ending.success then
      let code := match ending.code with
        | some code => Text.ofNat code
        | none => "-1"
      fail (.toolFailed tool.displayName ("exit code " ++ code))

/-- Edits are parts of a session. -/
instance : MonadLift Edit Work := ⟨edit⟩

end Work

end SiteScaffold

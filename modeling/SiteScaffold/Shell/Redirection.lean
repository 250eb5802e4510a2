/-
Redirections: what they name is expanded first, then the channels are led there,
and at the end of the command they are led back.
-/
import SiteScaffold.Shell.Expand

namespace SiteScaffold.Shell

/-- A redirection whose target is known: a file, another channel or none, or a text
in the script. -/
inductive Opening where
  | file (channel : Nat) (kind : RedirectKind) (name : Raw)
  | copy (channel : Nat) (source : Option Nat)
  | text (channel : Nat) (number : Nat)

namespace Redirection

/-- The channel that an opening is for. -/
def channel : Opening → Nat
  | .file channel _ _ | .copy channel _ | .text channel _ => channel

/-- A redirection with its target. -/
def expanded (capture : Capture) : Redirect → Task Opening
  | .here channel number => return .text channel number
  | .to channel kind target => do
    let name ← Expand.whole capture .whole target
    if kind ≠ .duplicate then return .file channel kind name
    match name with
    | ['-'] => return .copy channel none
    | [c] => if c.isDigit then return .copy channel (some (c.toNat - '0'.toNat)) else unknown
    | _ => unknown
where
  /-- Complains about a word that names no channel. -/
  unknown : Task Opening := do
    Task.changeOwn fun p => { p with line := p.lineAhead }
    Task.refuse "Syntax error: Bad fd number"

/-- The channel that a path of the system stands for. -/
def standardChannel? (name : Raw) : Option Nat :=
  match String.ofList name with
  | "/dev/stdin" => some 0
  | "/dev/stdout" => some 1
  | "/dev/stderr" => some 2
  | _ =>
    match (Text.after? "/dev/fd/" name).orElse fun _ => Text.after? "/proc/self/fd/" name with
    | some [c] => if c.isDigit then some (c.toNat - '0'.toNat) else none
    | _ => none

/-- Why a file cannot be opened, in words; `missing` tells that it is not there. -/
def reason (missing : Raw) (fault : Fault) : Raw :=
  if fault = .missing || fault = .notFolder then missing
  else match Text.cut? " (os error" fault.message with
    | some (front, _) => front
    | none => fault.message

/-- Opens a file for a kind of use; answers the state of its handle, or why it
cannot be opened. -/
def openFile (kind : RedirectKind) (name : Raw) : Task (Except Raw Handle) := do
  let disk ← if kind = .write || kind = .overwrite then Task.disk else Task.tree
  let path ← Task.path name
  let found := disk.locate true path
  let isRead := kind = .read
  let doing : Raw := if isRead then "cannot open " else "cannot create "
  let missing : Raw := if isRead then "No such file" else "Directory nonexistent"
  let refuse := fun (fault : Fault) =>
    (.error (doing ++ name ++ ": " ++ reason missing fault) : Except Raw Handle)
  let handle := fun (place : Key) (access : Access) =>
    if place = World.nullPlace then Handle.nothing else .file place 0 access
  let create := fun (place : Key) (access : Access) => do
    Task.setDisk (disk.insert place (.file false (.text [])))
    return .ok (handle place access)
  match kind, found with
  | _, .error fault => return refuse fault
  | _, .ok (.slashed _) => return refuse .notFolder
  | .read, .ok (.entry place (.file _ _)) => return .ok (handle place .read)
  | .read, .ok (.entry _ _) => return .ok .nothing
  | .read, .ok (.free _ _) => return refuse .missing
  | _, .ok (.entry _ .folder) | _, .ok (.entry _ (.link _)) => return refuse .isFolder
  | _, .ok (.free _ true) => return refuse .isFolder
  | .append, .ok (.entry place _) => return .ok (handle place .append)
  | .append, .ok (.free place false) => create place .append
  | .readWrite, .ok (.entry place _) => return .ok (handle place .both)
  | .readWrite, .ok (.free place false) => create place .both
  | kind, .ok (.entry place (.file executable _)) =>
    if kind = .write && (← Task.option 'C') && place ≠ World.nullPlace then
      return refuse .alreadyThere
    if place ≠ World.nullPlace then
      Task.setDisk (disk.insert place (.file executable (.text [])))
    return .ok (handle place .write)
  | _, .ok (.free place false) => create place .write

/-- Leads a channel to a handle, or to none. -/
def lead (channel : Nat) (handle : Option Nat) : Task Unit :=
  Task.changeOwn fun p =>
    let others := p.channels.filter (·.1 ≠ channel)
    { p with channels := match handle with
      | some n => (channel, n) :: others
      | none => others }

/-- Leads a channel to a new handle. -/
def leadNew (channel : Nat) (handle : Handle) : Task Nat := do
  let (n, world) := (← get).world.addHandle handle
  Task.changeWorld fun _ => world
  lead channel (some n)
  return n

/-- Carries out a redirection; answers the handles that it made. -/
def start (capture : Capture) (opening : Opening) : Task (List Nat) := do
  match opening with
  | .text channel number =>
    let w := ((← Task.own).texts.lookup number).getD []
    let text ← Expand.whole capture .text w
    return [← leadNew channel (.supply text)]
  | .copy channel none =>
    lead channel none
    return []
  | .copy channel (some source) =>
    match (← Task.own).channels.lookup source with
    | some n =>
      lead channel (some n)
      return []
    | none => Task.refuse (Text.ofNat source ++ ": Bad file descriptor")
  | .file channel kind name =>
    match standardChannel? name with
    | some source =>
      lead channel ((← Task.own).channels.lookup source)
      return []
    | none =>
      match ← openFile kind name with
      | .ok handle => return [← leadNew channel handle]
      | .error message => Task.refuse message

/-- Carries out redirections one after the other; answers the handles that were
made, and whether all went well. -/
def startAll (capture : Capture) (made : List Nat) : List Opening → Task (List Nat × Bool)
  | [] => return (made, true)
  | opening :: rest => do
    match ← Task.attempt (start capture opening) with
    | .ok more => startAll capture (more ++ made) rest
    | .error .complaint => return (made, false)
    | .error stop => throw stop

/-- Lets go of handles to which no channel leads any more. -/
def release (made : List Nat) : Task Unit := do
  let p ← Task.own
  made.forM fun n => do
    let inUse := p.channels.any (·.2 = n) || p.waiting.any fun (_, job, _) =>
      job.channels.any (·.2 = n)
    if !inUse then Task.changeWorld (·.dropHandle n)

/-- Leads channels back to where they led before. -/
def restore (before : List (Nat × Nat)) (openings : List Opening) (made : List Nat) :
    Task Unit := do
  openings.forM fun opening => lead (channel opening) (before.lookup (channel opening))
  release made

/-- Carries out a task with redirections; `whenRefused` says what to do if they do
not work. -/
def around (capture : Capture) (openings : List Opening) (keep : Task Bool)
    (whenRefused body : Task Unit) : Task Unit := do
  if openings.isEmpty then body
  else
    let before := (← Task.own).channels
    match ← Task.attempt (startAll capture [] openings) with
    | .error stop =>
      restore before openings []
      throw stop
    | .ok (made, well) =>
      let result ← Task.attempt (if well then body else whenRefused)
      let stays ← keep
      if !(stays && well) then restore before openings made
      Task.resume result

end Redirection

end SiteScaffold.Shell

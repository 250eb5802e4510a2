/-
Processes: a part of a script may run in a process of its own, which changes the
disk but nothing else of the process that waits for it. What a process does at its
end, and what it does about signals, is here as well.

How a part of a script runs is a parameter of everything that needs it.
-/
import SiteScaffold.Shell.Grammar
import SiteScaffold.Shell.Redirection
import SiteScaffold.Shell.Signal

namespace SiteScaffold.Shell

/-- Runs a part of a script. The mark tells that the script looks at how the part
comes out, so that a failure does not end it. -/
abbrev Exec := Bool → Script → Task Unit

/-- How a process ended: with a status, or by a signal. -/
inductive Outcome where
  | exited (status : Nat)
  | killed (signal : Nat)
  deriving Repr, DecidableEq

/-- The status that tells how a process ended. -/
def Outcome.status : Outcome → Nat
  | exited status => status % 256
  | killed signal => 128 + signal

namespace Run

-- ================================================ texts with commands

/-- Runs the next command of a source; answers the source after it, with the status of
the last command. `shown` tells that commands may be shown as they are read. -/
def nextCommand (run : Exec) (tested shown : Bool) : Source × Nat → Task (Option (Source × Nat)) :=
    fun (source, status) => do
  let p ← Task.own
  let source := { source with
    aliases := p.aliases, texts := p.texts, nextText := max p.nextText source.nextText }
  let tell := fun (after : Source) => do
    if shown && p.options.contains 'v' then
      discard <| Task.write 2 (source.ahead.take (source.ahead.length - after.ahead.length))
  match source.command? with
  | .error fault =>
    Task.changeOwn fun p => { p with line := fault.line }
    Task.refuse ("Syntax error: " ++ fault.message)
  | .ok (none, after) =>
    tell after
    return none
  | .ok (some found, after) =>
    tell after
    Task.changeOwn fun p => { p with
      texts := after.texts, nextText := after.nextText, lineAhead := after.line }
    match found with
    | some script =>
      if !p.options.contains 'n' then run tested script
      return some (after, (← Task.own).status)
    | none => return some (after, status)

/-- Runs a text of commands; answers the status of the last one. -/
def commands (run : Exec) (tested shown : Bool) (text : Raw) : Task Nat := do
  let p ← Task.own
  let source := Source.ofRaw text p.aliases p.nextText
  let result ← Task.attempt (Task.iterate (nextCommand run tested shown) Task.forever (source, 0))
  Task.changeOwn fun q => { q with lineAhead := p.lineAhead }
  let (_, status) ← Task.resume result
  return status

-- =========================================================== signals

/-- Does what a provision for a signal says. -/
def provision (run : Exec) (action : Raw) : Task Unit := do
  let status := (← Task.own).status
  match ← Task.attempt (commands run false false action) with
  | .ok _ => Task.setStatus status
  | .error (.exit none) => throw (.exit (some status))
  | .error stop => throw stop

/-- Heeds the signals that have come. -/
def heed (run : Exec) : Task Unit := do
  let s ← get
  if s.world.signals.isEmpty then return
  let (mine, others) := s.world.signals.partition (·.1 = s.own.number)
  Task.changeWorld fun w => { w with signals := others }
  mine.forM fun (_, signal) => do
    match (← Task.own).traps.lookup signal with
    | some action =>
      if signal = 9 then throw (.killed signal)
      if action ≠ [] then provision run action
    | none => if !Signal.isHarmless signal then throw (.killed signal)

-- ========================================================= processes

/-- The status that a process ends with, where `status` is the one so far. -/
def exitStatus (status : Nat) : Stop → Nat
  | .exit (some n) => n
  | _ => status

/-- Ends a process: what it said it would do then is done first. -/
def leave (run : Exec) (result : Except Stop Unit) : Task Outcome := do
  let p ← Task.own
  Task.changeOwn fun p => { p with loops := 0, functionLine := none, command := none, said := [] }
  let status := match result with
    | .ok () => p.status
    | .error stop => exitStatus p.status stop
  match result with
  | .error (.killed signal) => return .killed signal
  | _ =>
    match p.traps.lookup 0 with
    | none | some [] => return .exited (status % 256)
    | some action =>
      Task.changeOwn fun p => { p with status, traps := p.traps.filter (·.1 ≠ 0) }
      match ← Task.attempt (commands run false false action) with
      | .error (.killed signal) => return .killed signal
      | .error (.exit (some n)) => return .exited (n % 256)
      | .error .complaint => return .exited ((← Task.own).status % 256)
      | _ => return .exited (status % 256)

/-- Runs the jobs that are waiting, each in its process. A job may leave jobs of its
own, which come next; at most `limit` are run. -/
def runJobs (run : Exec) (limit : Nat) : Task Unit := do
  match limit, (← Task.own).waiting with
  | 0, _ | _, [] => return
  | limit + 1, (n, job, tested, script) :: rest =>
    Task.changeOwn fun p => { p with waiting := rest }
    let outer ← Task.own
    Task.changeOwn fun _ => job
    let result ← Task.attempt (run tested script)
    let outcome ← leave run result
    let more := (← Task.own).waiting
    Task.changeOwn fun _ => { outer with
      waiting := outer.waiting ++ more
      ended := (n, outcome.status) :: outer.ended }
    runJobs run limit

/-- How many jobs are run at most. -/
def mostJobs : Nat := 100000

/-- Runs a task as a process. -/
def inProcess (run : Exec) (p : Process) (body : Task Unit) : Task Outcome := do
  let outer ← Task.own
  Task.changeOwn fun _ => p
  let result ← Task.attempt body
  let outcome ← leave run result
  runJobs run mostJobs
  Task.changeOwn fun _ => outer
  return outcome

/-- A new number for a process. -/
def newNumber : Task Nat := do
  let n := (← get).world.nextProcess
  Task.changeWorld fun w => { w with nextProcess := n + 1 }
  return n

/-- A copy of this process; it does nothing about signals but ignore those that
this one ignores. -/
def copied : Task Process := do
  let number ← newNumber
  let p ← Task.own
  return { p with number, traps := p.traps.filter (·.2 = []), waiting := [], ended := [], said := [] }

/-- Tells of a process that was killed, and takes the status of one that ended. -/
def conclude (outcome : Outcome) : Task Unit := do
  match outcome with
  | .killed signal =>
    match Signal.described? signal with
    | some words => discard <| Task.write 2 (words ++ ['\n'])
    | none => pure ()
  | .exited _ => pure ()
  Task.setStatus outcome.status

/-- Runs a task in a copy of this process. -/
def inCopy (run : Exec) (body : Task Unit) : Task Unit := do
  conclude (← inProcess run (← copied) body)

/-- What a task writes to its standard output, and how it ends. -/
def collecting (run : Exec) (body : Task Unit) : Task (Raw × Outcome) := do
  let (n, world) := (← get).world.addHandle (.collector [])
  Task.changeWorld fun _ => world
  let p ← copied
  let outcome ← inProcess run
    { p with channels := (1, n) :: p.channels.filter (·.1 ≠ 1) } body
  let out := (← get).world.collected n
  Task.changeWorld (·.dropHandle n)
  return (out, outcome)

/-- What commands write, without the ends of the last lines. -/
def capture (run : Exec) : Capture := fun body => do
  match body with
  | none =>
    Task.changeOwn fun p => { p with asked := 0 }
    return []
  | some script =>
    let status := (← Task.own).status
    let (out, outcome) ← collecting run (run false script)
    conclude outcome
    Task.changeOwn fun p => { p with asked := outcome.status, status }
    let out := out.filter (· ≠ '\x00')
    return (out.reverse.dropWhile (· = '\n')).reverse

/-- Runs commands of which each reads what the one before it writes. -/
def pipeline (run : Exec) (tested : Bool) (input : Option Nat) : List Script → Task Unit
  | [] => return
  | script :: rest => do
    let fed : Task Unit := do
      match input with
      | some n => Redirection.lead 0 (some n)
      | none => pure ()
      run tested script
    let drop : Task Unit := match input with
      | some n => Task.changeWorld (·.dropHandle n)
      | none => pure ()
    if rest.isEmpty then
      inCopy run fed
      drop
    else
      let (out, outcome) ← collecting run fed
      drop
      let status := (← Task.own).status
      conclude outcome
      Task.setStatus status
      let (n, world) := (← get).world.addHandle (.supply out)
      Task.changeWorld fun _ => world
      pipeline run tested (some n) rest

/-- Has a part of a script run later, at the next occasion to wait for it. It reads
nothing from the input of the shell. -/
def postpone (script : Script) : Task Unit := do
  let p ← copied
  let (n, world) := (← get).world.addHandle .nothing
  Task.changeWorld fun _ => world
  let job := { p with channels := (0, n) :: p.channels.filter (·.1 ≠ 0) }
  Task.changeOwn fun p => { p with
    waiting := p.waiting ++ [(job.number, job, false, script)]
    lastJob := some job.number
    status := 0 }

end Run

end SiteScaffold.Shell

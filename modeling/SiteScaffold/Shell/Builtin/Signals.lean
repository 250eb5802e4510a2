/-
The commands of the shell that make provisions for signals and send them.
-/
import SiteScaffold.Shell.Builtin.Options
import SiteScaffold.Shell.Signal

namespace SiteScaffold.Shell

namespace Builtin

/-- Shows what is done about signals. -/
def showTraps : Task Unit := do
  let p ← Task.own
  (List.range Signal.limit).forM fun signal =>
    match p.traps.lookup signal with
    | some action => Task.sayLine ("trap -- " ++ quoted action ++ " " ++ Signal.name signal)
    | none => pure ()

/-- Sets what is done about signals, one after the other. -/
def setTraps (action : Option Raw) : List Raw → Task Nat
  | [] => return 0
  | word :: words => do
    match Signal.ofWord? word with
    | none =>
      discard <| Task.write 2 ("trap: " ++ word ++ ": bad trap\n")
      return 1
    | some signal =>
      Task.changeOwn fun p =>
        let others := p.traps.filter (·.1 ≠ signal)
        { p with traps := match action with
          | some action => (signal, action) :: others
          | none => others }
      setTraps action words

/-- Says what is to be done about signals, or shows it. -/
def trap (args : List Raw) : Task Nat := do
  let (_, operands) ← options [] args
  match operands with
  | [] =>
    showTraps
    return 0
  | first :: rest =>
    let isNumber := first ≠ [] && first.all Char.isDigit && (Signal.ofWord? first).isSome
    if rest.isEmpty || isNumber then setTraps none operands
    else setTraps (if first = "-" then none else some first) rest

/-- How `kill` is called. -/
def killUsage : Raw :=
  "Usage: kill [-s sigspec | -signum | -sigspec] [pid | job]... or\nkill -l [exitstatus]"

/-- Sends a signal to a process: the shell itself, the one it belongs to, or one
that is still to run. -/
def send (signal : Nat) (target : Raw) : Task Bool := do
  if target.head? = some '%' then Task.refuse ("No such job: " ++ target)
  let isGroup := target.head? = some '-'
  let n ← Task.number (if isGroup then target.drop 1 else target)
  let p ← Task.own
  let n := if n = 0 then p.number else n
  if n = p.number || n = p.shell then
    if signal ≠ 0 then
      Task.changeWorld fun w => { w with signals := w.signals ++ [(n, signal)] }
    return true
  if p.waiting.any (·.1 = n) then
    if signal ≠ 0 && !Signal.isHarmless signal then
      Task.changeOwn fun p => { p with
        waiting := p.waiting.filter (·.1 ≠ n)
        ended := (n, 128 + signal) :: p.ended }
    return true
  Task.warn "No such process\n"
  return false

/-- Sends a signal to processes, or tells the names of signals. -/
def kill (args : List Raw) : Task Nat := do
  if args.isEmpty then Task.refuse killUsage
  let named := match args with
    | ('-' :: word) :: _ => (Signal.ofWord? word).filter fun n => n > 0 || word = "0"
    | _ => none
  let (signal, lists, targets) ← match named with
    | some signal => pure (some signal, false, args.drop 1)
    | none => do
      let (letters, operands) ← if (args.head?.bind List.head?) = some '-' then
          options ['l', 's', ':'] args else pure ([], args)
      let chosen ← letters.foldlM (fun (found : Option Nat) (letter, word) => do
        if letter = 'l' then return found
        match Signal.ofWord? word with
        | some signal => return some signal
        | none => Task.refuse ("invalid signal number or name: " ++ word)) none
      pure (chosen, letters.any (·.1 = 'l'), operands)
  if lists then
    if signal.isSome then Task.refuse killUsage
    match targets with
    | [] =>
      Task.sayLine "0"
      (List.range (Signal.limit - 1)).forM fun n => Task.sayLine (Signal.name (n + 1))
    | word :: _ =>
      let n ← Task.number word
      let n := if n > 128 then n - 128 else n
      if 0 < n && n < Signal.limit then Task.sayLine (Signal.name n)
      else Task.refuse ("invalid signal number or exit status: " ++ word)
    return 0
  if targets.isEmpty then Task.refuse killUsage
  let sent ← targets.mapM (send (signal.getD 15))
  return if sent.all id then 0 else 1

end Builtin

end SiteScaffold.Shell

/-
Running scripts. Each step is written against a way to run the parts of a script;
`exec` ties the knot with a bound on the depth of parts in parts, and a script that
reaches it is killed, as is one that runs more commands than it may.
-/
import SiteScaffold.Shell.Builtin.Signals
import SiteScaffold.Shell.Builtin.Values
import SiteScaffold.Shell.Builtin.Variables
import SiteScaffold.Shell.Starting

namespace SiteScaffold.Shell

namespace Run

-- ============================================ commands that run others

/-- Runs words as commands. -/
def eval (run : Exec) (tested : Bool) (args : List Raw) : Task Nat :=
  commands run tested false (Text.join " " args)

/-- Runs the commands in a file. -/
def source (run : Exec) (args : List Raw) : Task Nat := do
  let (_, operands) ← Builtin.options [] args
  match operands with
  | [] => return 0
  | name :: _ =>
    let path ← if name.contains '/' then pure name else do
      match ← Builtin.findProgram? ((← Task.own).valueOf "PATH") name with
      | some path => pure path
      | none => Task.refuse (name ++ ": not found")
    match ← Redirection.openFile .read path with
    | .error reason => Task.refuse reason
    | .ok handle =>
      let disk ← Task.disk
      let text := match handle with
        | .file place _ _ => World.bytesAt disk place
        | _ => []
      Task.changeOwn fun p => { p with command := some path }
      match ← Task.attempt (commands run false true (text.filter (· ≠ '\x00'))) with
      | .ok status => return status
      | .error .leave => return (← Task.own).status
      | .error stop => throw stop

/-- Runs a program in the place of the shell. -/
def replace (run : Exec) (args : List Raw) : Task Nat := do
  let (_, operands) ← Builtin.options [] args
  match operands with
  | [] => return 0
  | name :: args =>
    match ← findProgram false name with
    | .error (reason, status) =>
      Task.warn (name ++ ": " ++ reason)
      throw (.exit (some status))
    | .ok (path, program) =>
      Task.changeOwn fun p => { p with traps := p.traps.filter (·.2 = []) }
      match ← Task.attempt (become run name path args program) with
      | .error (.killed signal) => throw (.killed signal)
      | result =>
        let p ← Task.own
        let status := match result with
          | .ok () => p.status
          | .error stop => exitStatus p.status stop
        match ← leave run (.error (.exit (some status))) with
        | .exited status =>
          Task.changeOwn fun p => { p with traps := [] }
          throw (.exit (some status))
        | .killed signal => throw (.killed signal)

/-- The status that a word asks for, if there is one. -/
def statusWord (args : List Raw) : Task (Option Nat) := do
  match args with
  | [] => return none
  | word :: _ => return some (← Task.number word)

/-- Leaves loops, or goes on with the next turn of one. -/
def leaveLoops (make : Nat → Stop) (args : List Raw) : Task Nat := do
  let n ← match args with
    | [] => pure 1
    | word :: _ => do
      let n ← Task.number word
      if n = 0 then Task.refuse ("Illegal number: " ++ word)
      pure n
  let n := min n (← Task.own).loops
  if n = 0 then return 0
  Task.setStatus 0
  throw (make n)

/-- Waits for jobs. -/
def wait (run : Exec) (args : List Raw) : Task Nat := do
  let (_, operands) ← Builtin.options [] args
  runJobs run mostJobs
  if operands.isEmpty then
    Task.changeOwn fun p => { p with ended := [] }
    return 0
  operands.foldlM (fun _ word => do
    if word.head? = some '%' then Task.refuse ("No such job: " ++ word)
    let n ← Task.number word
    match (← Task.own).ended.lookup n with
    | none => return 127
    | some status =>
      Task.changeOwn fun p => { p with ended := p.ended.filter (·.1 ≠ n) }
      match if status > 128 then Signal.described? (status - 128) else none with
      | some words => if status < 160 then discard <| Task.write 2 (words ++ ['\n'])
      | none => pure ()
      return status) 0

/-- Shows the limits of the system, of which there are none. -/
def limits (args : List Raw) : Task Nat := do
  let (letters, operands) ← Builtin.options "HSatfdscmlpnvwr".toList args
  if letters.any (·.1 = 'a') then return 0
  if operands.isEmpty then Task.sayLine "unlimited"
  return 0

-- ===================================================== the commands

/-- A command that the shell carries out itself: whether it is one whose failure
ends the script, whether its words may assign, and what it does with its words; the
mark tells whether the script looks at how it comes out. -/
structure Inner where
  special : Bool
  assigns : Bool
  body : Exec → Bool → List Raw → Task Nat

/-- The commands that look at the names of commands. -/
def naming : List Raw := (["command", "type"] : List String).map String.toList

/-- The commands that the shell carries out itself, but for those that look at their
names. -/
def inner? (name : Raw) : Option Inner :=
  let plain := fun (body : List Raw → Task Nat) => some ⟨false, false, fun _ _ => body⟩
  let special := fun (body : List Raw → Task Nat) => some ⟨true, false, fun _ _ => body⟩
  let marking := fun (body : List Raw → Task Nat) => some ⟨true, true, fun _ _ => body⟩
  match String.ofList name with
  | ":" => special fun _ => return 0
  | "true" => plain fun _ => return 0
  | "false" => plain fun _ => return 1
  | "echo" => plain Builtin.echo
  | "printf" => plain Builtin.printf
  | "test" => plain Builtin.test
  | "[" => plain Builtin.bracket
  | "cd" | "chdir" => plain Builtin.cd
  | "pwd" => plain Builtin.pwd
  | "umask" => plain Builtin.umask
  | "read" => plain Builtin.read
  | "getopts" => plain Builtin.getopts
  | "kill" => plain Builtin.kill
  | "alias" => some ⟨false, true, fun _ _ => Builtin.aliases⟩
  | "unalias" => plain Builtin.unalias
  | "hash" => plain Builtin.hash
  | "ulimit" => plain limits
  | "jobs" => plain fun _ => return 0
  | "fg" | "bg" => plain fun _ => Task.refuse "No current job"
  | "wait" => some ⟨false, false, fun run _ => wait run⟩
  | "times" => special fun _ => do
      Task.say "0m0.000000s 0m0.000000s\n0m0.000000s 0m0.000000s\n"
      return 0
  | "trap" => special Builtin.trap
  | "set" => special Builtin.set
  | "shift" => special Builtin.shift
  | "unset" => special Builtin.unset
  | "export" => marking Builtin.exportNames
  | "readonly" => marking Builtin.makeReadOnly
  | "local" => marking Builtin.makeLocal
  | "break" => special (leaveLoops .brk)
  | "continue" => special (leaveLoops .cont)
  | "exit" => special fun args => do throw (.exit (← statusWord args))
  | "return" => special fun args => do
      match ← statusWord args with
      | some status => Task.setStatus status
      | none => pure ()
      throw .leave
  | "eval" => some ⟨true, false, eval⟩
  | "." => some ⟨true, false, fun run _ => source run⟩
  | "exec" => some ⟨true, false, fun run _ => replace run⟩
  | _ => none

/-- Whether a command that the shell carries out itself is a special one. -/
def kind? (name : Raw) : Option Bool :=
  if name ∈ naming then some false else (inner? name).map (·.special)

/-- The commands that the shell carries out itself. -/
def command? (name : Raw) : Option Inner :=
  match String.ofList name with
  | "command" => some ⟨false, false, fun _ _ => Builtin.command kind? Token.keywords⟩
  | "type" => some ⟨false, false, fun _ _ => Builtin.type kind? Token.keywords⟩
  | _ => inner? name

-- ================================================== simple commands

/-- What a command turned out to be: one of a function's, one that the shell carries
out itself, or a program. -/
inductive Callee where
  | function (f : Function)
  | inner (command : Inner)
  | program

/-- The words of a command as far as they have been expanded, and the others. -/
structure Words where
  fields : List Raw
  rest : List Word

/-- The words with at least one field more, if there are that many. -/
def Words.another (capture : Capture) (done : List Raw) : List Word → Task Words
  | [] => return ⟨done, []⟩
  | w :: rest => do
    match ← Expand.fields capture w with
    | [] => Words.another capture done rest
    | found => return ⟨done ++ found, rest⟩

/-- What is known of a command by its first words: what it is, whether the first of
its names stands for a special command, whether its words may assign, whether it is
`exec`, whether the usual programs are meant, and how many words stand before its
name. -/
structure Lookup where
  callee : Callee
  special : Option Bool
  assigns : Bool
  isExec : Bool
  usual : Bool
  skipped : Nat

/-- Passes over the options of `command`; answers how many words stand before the
name of the other command, if there is one. -/
def commandName (capture : Capture) (fuel at' : Nat) (usual : Bool) (words : Words) :
    Task (Words × Option (Nat × Bool)) := do
  match fuel with
  | 0 => return (words, none)
  | fuel + 1 =>
    let words ← if words.fields.length > at' then pure words
      else Words.another capture words.fields words.rest
    match words.fields[at']? with
    | none => return (words, none)
    | some ['-', '-'] =>
      let words ← if words.fields.length > at' + 1 then pure words
        else Words.another capture words.fields words.rest
      return (words, if words.fields.length > at' + 1 then some (at' + 1, usual) else none)
    | some ('-' :: c :: more) =>
      if (c :: more).all (· = 'p') then commandName capture fuel (at' + 1) true words
      else return (words, none)
    | some _ => return (words, some (at', usual))

/-- Finds out what a command is, from the word at a place on. -/
def look (capture : Capture) (fuel : Nat) (found : Lookup) (words : Words) :
    Task (Words × Lookup) := do
  match fuel with
  | 0 => return (words, found)
  | fuel + 1 =>
    let name := words.fields.getD found.skipped []
    let p ← Task.own
    match if found.skipped = 0 then p.functions.lookup name else none with
    | some f => return (words, { found with callee := .function f })
    | none =>
      match command? name with
      | none => return (words, { found with callee := .program })
      | some command =>
        let found := { found with
          callee := .inner command
          special := found.special.orElse fun _ => some command.special
          assigns := command.assigns
          isExec := name = "exec" }
        if name ≠ "command" then return (words, found)
        let (words, next) ← commandName capture Task.forever (found.skipped + 1) found.usual words
        match next with
        | none => return (words, found)
        | some (skipped, usual) => look capture fuel { found with skipped, usual } words

/-- The word with the name and sign of an assignment, and its value. -/
def cutAssignment (w : Word) : Raw × Word :=
  let name := w.takeWhile fun
    | .char '=' false => false
    | _ => true
  (Expand.plain (name.filterMap fun
    | .char c q => some (.char c q)
    | _ => none), w.drop (name.length + 1))

/-- The fields of words, of which some may be assignments. -/
def expandRest (capture : Capture) (assigns : Bool) (done : List Raw) :
    List Word → Task (List Raw)
  | [] => return done.reverse
  | w :: rest => do
    if assigns && Grammar.isAssignment w then
      let (name, value) := cutAssignment w
      let value ← Expand.whole capture .assigned value
      expandRest capture assigns ((name ++ '=' :: value) :: done) rest
    else
      let fields ← Expand.fields capture w
      expandRest capture assigns (fields.reverse ++ done) rest

/-- Carries out assignments, for the time of the command or for good; answers them
as they are shown. -/
def assign (capture : Capture) (brief exported : Bool) (done : List Raw) :
    List Word → Task (List Raw)
  | [] => return done.reverse
  | w :: rest => do
    let (name, value) := cutAssignment w
    let value ← Expand.whole capture .assigned value
    if brief then Task.hide name
    Task.setVariable name value
    if brief || exported then
      Task.changeOwn fun p =>
        match p.getVariable? name with
        | some v => p.putVariable name { v with exported := true }
        | none => p
    assign capture brief exported ((name ++ '=' :: value) :: done) rest

/-- Shows a command that is about to run, on the channel that led there before. -/
def trace (capture : Capture) (channel : Option Nat) (shown : List Raw) : Task Unit := do
  let p ← Task.own
  let sign := p.valueOf "PS4"
  let sign ← match Source.quotedWord? sign with
    | some w => do
      Task.changeOwn fun p => { p with options := p.options.filter (· ≠ 'x') }
      let text ← Expand.whole capture .text w
      Task.changeOwn fun q => { q with options := p.options }
      pure text
    | none => pure sign
  match channel with
  | none => return
  | some n =>
    match (← get).world.write? n (sign ++ Text.join " " shown ++ ['\n']) with
    | some world => Task.changeWorld fun _ => world
    | none => return

/-- Runs a command that the shell carries out itself. -/
def runInner (run : Exec) (tested : Bool) (command : Inner) (special : Bool) (name : Raw)
    (args : List Raw) : Task Unit := do
  let before := (← Task.own).command
  Task.changeOwn fun p => { p with command := some name }
  let result ← Task.attempt (command.body run tested args)
  let written ← Task.flush
  if !written then Task.warn (name ++ ": I/O error")
  Task.changeOwn fun p => { p with command := before }
  match result with
  | .ok status => Task.setStatus (if written then status else status ||| 1)
  | .error .complaint => if special then throw .complaint
  | .error stop => throw stop

/-- How many functions may run at a time. -/
def mostCalls : Nat := 1000

/-- Runs a function. -/
def call (run : Exec) (tested : Bool) (f : Function) (args : List Raw) : Task Unit := do
  let p ← Task.own
  if p.calls ≥ mostCalls then
    Task.refuse ("Maximum function recursion depth (" ++ Text.ofNat mostCalls ++ ") reached")
  Task.changeOwn fun p => { p with
    calls := p.calls + 1, args, loops := 0, functionLine := some f.line, nextArg := 1, nextLetter := 0 }
  let result ← Task.attempt (run tested f.body)
  Task.changeOwn fun q => { q with
    calls := p.calls, args := p.args, loops := p.loops, functionLine := p.functionLine, nextArg := p.nextArg
    nextLetter := p.nextLetter }
  match result with
  | .error .leave => return
  | result => Task.resume result

/-- Runs a program and waits for it. -/
def runProgram (run : Exec) (usual : Bool) (name : Raw) (args : List Raw) : Task Unit := do
  match ← findProgram usual name with
  | .error (reason, status) =>
    Task.warn (name ++ ": " ++ reason)
    Task.setStatus status
  | .ok (path, program) =>
    if Utility.lastPart path = "sleep" then runJobs run mostJobs
    inCopy run (become run name path args program)

/-- Runs a task, after which what it hid comes back. -/
def withHidden (brief : Bool) (body : Task Unit) : Task Unit := do
  if !brief then body
  else
    Task.changeOwn fun p => { p with hidden := [] :: p.hidden }
    let result ← Task.attempt body
    let undone ← Task.attempt Task.unhide
    Task.resume undone
    Task.resume result

/-- Runs a simple command. -/
def simple (run : Exec) (tested : Bool) (line : Nat) (assignments words : List Word)
    (redirects : List Redirect) : Task Unit := do
  Task.changeOwn fun p => { p with line, asked := 0 }
  let capture := capture run
  let started ← Words.another capture [] words
  let nothing : Lookup := ⟨.program, none, false, false, false, 0⟩
  let (started, found) ← if started.fields.isEmpty then pure (started, nothing)
    else look capture Task.forever nothing started
  let rest ← expandRest capture found.assigns [] started.rest
  let fields := started.fields ++ rest
  let openings ← redirects.mapM (Redirection.expanded capture)
  let brief := !fields.isEmpty && found.special ≠ some true
  let called := fields.drop found.skipped
  let before := (← Task.own).channels.lookup 2
  let whenRefused : Task Unit := do
    Task.setStatus 2
    if found.special = some true then throw .complaint
  let body : Task Unit := withHidden brief do
    let exported := found.isExec && called.length > 1
    let shown ← assign capture brief exported [] assignments
    if ← Task.option 'x' then trace capture before (shown ++ fields)
    match called, found.callee with
    | [], _ => Task.setStatus (← Task.own).asked
    | name :: args, .inner command =>
      runInner run tested command (found.special = some true) name args
    | _ :: args, .function f => call run tested f args
    | name :: args, .program => runProgram run found.usual name args
  Redirection.around capture openings (pure found.isExec) whenRefused body

-- ================================================ compound commands

/-- Takes a turn of a loop, which may be cut short, or end the loop; answers whether
there may be another one. -/
def turn (body : Task Bool) : Task Bool := do
  match ← Task.attempt body with
  | .ok more => return more
  | .error (.brk n) => if n ≤ 1 then return false else throw (.brk (n - 1))
  | .error (.cont n) => if n ≤ 1 then return true else throw (.cont (n - 1))
  | .error stop => throw stop

/-- Runs a loop, in which loops may be left. -/
def inLoop (body : Task Unit) : Task Unit := do
  let loops := (← Task.own).loops
  Task.changeOwn fun p => { p with loops := loops + 1 }
  let result ← Task.attempt body
  Task.changeOwn fun p => { p with loops }
  Task.resume result

/-- Runs a loop as long as a condition holds, or until it does. It comes out as its
last turn did. -/
def loop (run : Exec) (tested untilTrue : Bool) (test body : Script) : Task Unit :=
  inLoop do discard <| Task.iterate (fun last => do
    let more ← turn do
      run true test
      let holds := (← Task.own).status = 0
      if holds = untilTrue then
        Task.setStatus last
        return false
      run tested body
      return true
    let p ← Task.own
    return if more then some p.status else none) Task.forever 0

/-- Runs a loop over words. -/
def each (run : Exec) (tested : Bool) (name : Raw) (body : Script) (words : List Raw) :
    Task Unit := do
  if words.isEmpty then Task.setStatus 0
  inLoop do discard <| Task.iterate (fun
    | [] => return none
    | word :: rest => do
      let more ← turn do
        Builtin.checkName name
        Task.setVariable name word
        run tested body
        return true
      return if more then some rest else none) Task.forever words

/-- Runs the first clause with a pattern that a word matches. -/
def choose (run : Exec) (tested : Bool) (word : Raw) :
    List (List Word × Option Script) → Task Unit
  | [] => Task.setStatus 0
  | (patterns, body) :: rest => do
    if ← anyMatches patterns then
      match body with
      | some body => run tested body
      | none => Task.setStatus 0
    else choose run tested word rest
where
  /-- Whether one of some patterns matches the word. -/
  anyMatches : List Word → Task Bool
    | [] => return false
    | p :: rest => do
      let glob ← Expand.pattern (capture run) p
      if glob.accepts word then return true else anyMatches rest

/-- Runs commands of which each depends on how the ones before it came out. -/
def chain (run : Exec) (tested : Bool) : List (Bool × Script) → Task Unit
  | [] => return
  | (wantsWell, script) :: rest => do
    let well := (← Task.own).status = 0
    if well = wantsWell then run (tested || !rest.isEmpty) script
    chain run tested rest

/-- Runs commands one after the other. -/
def sequence (run : Exec) (tested : Bool) : List Script → Task Unit
  | [] => return
  | [last] => run tested last
  | script :: rest => do
    run tested script
    sequence run tested rest

/-- Ends the script if a command failed that nobody looks at. -/
def mindFailure (tested : Bool) (body : Task Unit) : Task Unit := do
  let minds ← Task.option 'e'
  body
  if minds && !tested && (← Task.own).status ≠ 0 then throw (.exit none)

/-- Goes to a line. -/
def atLine (line : Nat) : Task Unit := Task.changeOwn fun p => { p with line }

/-- Runs a part of a script whose parts are run by `run`. -/
def step (run : Exec) (tested : Bool) (script : Script) : Task Unit := do
  heed run
  if ← Task.option 'n' then return
  match script with
  | .simple line assignments words redirects =>
    let budget := (← get).world.budget
    if budget = 0 then throw (.killed 9)
    Task.changeWorld fun w => { w with budget := budget - 1 }
    mindFailure tested (simple run tested line assignments words redirects)
  | .list commands => sequence run tested commands
  | .chain first rest =>
    run true first
    chain run tested rest
  | .negate body =>
    run true body
    Task.changeOwn fun p => { p with status := if p.status = 0 then 1 else 0 }
  | .pipe commands => mindFailure tested (pipeline (fun _ => run tested) tested none commands)
  | .subshell line body redirects =>
    atLine line
    let openings ← redirects.mapM (Redirection.expanded (capture run))
    let inside : Task Unit :=
      Redirection.around (capture run) openings (pure true) (throw (.exit (some 2)))
        (run tested body)
    mindFailure tested (inCopy run inside)
  | .background line body =>
    atLine line
    postpone (match body with
      | .redirected line body redirects => .subshell line body redirects
      | _ => body)
  | .redirected line body redirects =>
    atLine line
    let openings ← redirects.mapM (Redirection.expanded (capture run))
    Redirection.around (capture run) openings (pure false) (Task.setStatus 2) (run tested body)
  | .branch test yes no =>
    run true test
    if (← Task.own).status = 0 then run tested yes
    else
      match no with
      | some no => run tested no
      | none => Task.setStatus 0
  | .loop untilTrue test body => loop run tested untilTrue test body
  | .each line name words body =>
    atLine line
    let fields ← expandRest (capture run) false [] words
    each run tested name body fields
  | .choose line word clauses =>
    atLine line
    let word ← Expand.whole (capture run) .whole word
    choose run tested word clauses
  | .define line name body =>
    Task.changeOwn fun p => { p with
      status := 0
      functions := (name, ⟨line, body⟩) :: p.functions.filter (·.1 ≠ name) }
  heed run

/-- Runs a script in which parts may contain one another up to a depth. -/
def exec (depth : Nat) : Exec :=
  match depth with
  | 0 => fun _ _ => throw (.killed 11)
  | depth + 1 => fun tested script => step (exec depth) tested script

end Run

end SiteScaffold.Shell

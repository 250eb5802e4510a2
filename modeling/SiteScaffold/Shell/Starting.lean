/-
Starting programs: a program gets the variables that are marked for it, the folder,
and the channels, and ends with a status. A shell reads its script from a file, from
an argument or from its input.
-/
import SiteScaffold.Shell.Builtin.Names
import SiteScaffold.Shell.Builtin.Folders
import SiteScaffold.Shell.Process
import SiteScaffold.Shell.Program

namespace SiteScaffold.Shell

namespace Run

/-- The variables a shell starts with, apart from those it is given. -/
def usualVariables : List (Raw × Variable) :=
  ([("IFS", " \t\n"), ("OPTIND", "1"), ("PS1", "# "), ("PS2", "> "), ("PS4", "+ "), ("PPID", "1")]
    : List (String × String)).map fun (name, value) =>
      (name.toList, ⟨some value.toList, false, false⟩)

/-- The process of a shell that was just started from another process. -/
def shellProcess (p : Process) (disk : Disk) (name : Raw) : Process :=
  let given := (p.environment.filter fun (n, _) => Raw.isName n && n ≠ "IFS").map
    fun (n, value) => (n, (⟨some value, true, false⟩ : Variable))
  let place := fun (path : Text) => (disk.find true path).toOption.map (·.1)
  let folder := match p.environment.lookup "PWD".toList with
    | some path =>
      if path.head? = some '/' && (place (Raw.text path)).isSome
          && place (Raw.text path) = place p.folder then Raw.text path
      else ((place p.folder).map Builtin.placePath).getD p.folder
    | none => ((place p.folder).map Builtin.placePath).getD p.folder
  let path : Raw × Variable := ("PATH".toList, ⟨some Builtin.usualFolders, false, false⟩)
  let known := given ++ (usualVariables ++ [path]).filter fun (n, _) => (given.lookup n).isNone
  let here : Variable := ⟨some (Raw.ofText folder), true, false⟩
  { p with
    shell := p.number, folder, name, args := []
    bindings := ("PWD".toList, here) :: known.filter (·.1 ≠ "PWD")
    functions := [], aliases := [], options := [], status := 0, asked := 0, line := 0
    functionLine := none, command := none, loops := 0, calls := 0, hidden := [], said := [], texts := []
    nextText := 0, waiting := [], ended := [], lastJob := none, nextArg := 1, nextLetter := 0
    found := [] }

/-- Runs a shell with its arguments in the process that was made for it. -/
def shell (run : Exec) (name : Raw) (args : List Raw) : Task Unit := do
  let disk ← Task.disk
  Task.changeOwn fun p => shellProcess p disk name
  let (found, _, rest) ← Builtin.shellOptions true (Builtin.extent args) [] true [] args
  discard Task.flush
  let script ← do
    if found.contains 'c' then
      match rest with
      | [] => Task.refuse "-c requires an argument"
      | text :: rest =>
        Task.changeOwn fun p => { p with name := rest.head?.getD name, args := rest.tail }
        pure (text, false)
    else
      match rest, (← Task.option 's') with
      | file :: rest, false =>
        match ← Redirection.openFile .read file with
        | .error reason => Task.refuse reason
        | .ok handle =>
          Task.changeOwn fun p => { p with name := file, args := rest }
          let text := match handle with
            | .file place _ _ => World.bytesAt disk place
            | _ => []
          pure (text, true)
      | rest, _ =>
        Task.changeOwn fun p => { p with args := rest, options := 's' :: p.options.filter (· ≠ 's') }
        pure ((← Task.readAll 0).getD [], true)
  let (text, shown) := script
  discard <| commands run false shown (text.filter (· ≠ '\x00'))

/-- The variables that words assign, and the words after them. -/
def leadingAssignments : List Raw → List (Raw × Raw) × List Raw
  | [] => ([], [])
  | word :: rest =>
    match Raw.cutAt '=' word with
    | (name, some value) =>
      let (more, words) := leadingAssignments rest
      ((name, value) :: more, words)
    | (_, none) => ([], word :: rest)

/-- The wording of a fault without its number. -/
def wording (fault : Fault) : Raw := Redirection.reason (Utility.wording fault) fault

/-- Starts programs, of which one may start another one; `depth` bounds how often
that happens. A program knows the name it was called by, a script its path. The
process ends with the status. -/
def start (run : Exec) (depth : Nat) (name path : Raw) (args : List Raw) (program : Program) :
    Task Unit := do
  match depth with
  | 0 => Task.setStatus 126
  | depth + 1 =>
    match program with
    | .utility utility =>
      Task.changeOwn fun p => { p with command := none, said := [], traps := [] }
      let status ← utility name args
      discard Task.flush
      Task.setStatus status
    | .shell => shell run name args
    | .script interpreter argument =>
      let disk ← Task.disk
      match Program.at? disk (← Task.own).folder Program.interpreters (Raw.text interpreter) with
      | .ok inner => start run depth interpreter interpreter (argument.toList ++ path :: args) inner
      | .error _ => Task.setStatus 126
    | .env =>
      let known := [Utility.flag 'i' "ignore-environment", Utility.valued 'u' "unset",
        Utility.valued 'C' "chdir", Utility.flag '0' "null"]
      match Utility.given? known true args with
      | .error reason => Task.setStatus (← Utility.misused name reason 125)
      | .ok g =>
        let operands := if g.operands.head? = some "-" then g.operands.tail else g.operands
        if g.has 'i' || g.operands.head? = some "-" then
          Task.changeOwn fun p => { p with bindings := [] }
        (g.options.filter (·.1 = 'u')).forM fun (_, n) =>
          Task.changeOwn (·.dropVariable n)
        let (assigned, words) := leadingAssignments operands
        assigned.forM fun (n, value) =>
          Task.changeOwn (·.putVariable n ⟨some value, true, false⟩)
        match g.value? 'C' with
        | some folder =>
          let path ← Task.path folder
          Task.changeOwn fun p => { p with folder := path }
        | none => pure ()
        match words with
        | [] =>
          (← Task.own).environment.reverse.forM fun (n, value) => Task.sayLine (n ++ '=' :: value)
          discard Task.flush
          Task.setStatus 0
        | inner :: args =>
          let disk ← Task.disk
          let p ← Task.own
          let folders := match p.environment.lookup "PATH".toList with
            | some path => path
            | none => "/bin:/usr/bin"
          match Program.resolve disk p.folder folders inner with
          | .ok (path, program) =>
            start run depth inner path args program
          | .error fault =>
            Utility.complain name (Utility.quote inner ++ ": " ++ Utility.wording fault)
            Task.setStatus (if fault = .missing then 127 else 126)

/-- How often a program may start another one in its place. -/
def deepest : Nat := 100

/-- A program found for a command, or the words in which its absence is told and
the status that tells of it. -/
def findProgram (usual : Bool) (name : Raw) : Task (Except (Raw × Nat) (Raw × Option Program)) := do
  let disk ← Task.disk
  let p ← Task.own
  let refusal := fun (fault : Fault) =>
    let absent := fault = .missing || fault = .notFolder || fault = .tooManyLinks
      || fault = .nameTooLong
    (Redirection.reason "not found" fault, if absent then 127 else 126)
  let at? := fun (path : Raw) =>
    match Program.at? disk p.folder Program.interpreters (Raw.text path) with
    | .ok program => Except.ok (path, some program)
    | .error .notExecutable => Except.ok (path, none)
    | .error fault => Except.error (refusal fault)
  if name.contains '/' then return at? name
  else
    let path ← if usual then Builtin.findProgram? Builtin.usualFolders name
      else Builtin.remembered? name
    match path with
    | some path => return at? path
    | none => return .error ("not found", 127)

/-- Runs a program in this process, in the place of the shell; without an
interpreter of its own it is a script for the shell. -/
def become (run : Exec) (name path : Raw) (args : List Raw) (program : Option Program) :
    Task Unit := do
  match program with
  | some program => start run deepest name path args program
  | none => start run deepest "/bin/sh" "/bin/sh" (path :: args) .shell

end Run

end SiteScaffold.Shell

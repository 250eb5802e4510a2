/-
A launcher that runs programs on a disk: the utilities of the system, and scripts
for its shell. What a program writes to its standard output and to its standard
error is collected; there is nothing for it to read.
-/
import SiteScaffold.Shell.Execution
import SiteScaffold.Shell.Host
import SiteScaffold.Tool

namespace SiteScaffold.Shell

namespace Run

/-- How deep the parts of a script may contain one another. -/
def depthLimit : Nat := 100000

/-- How many commands a program may run. -/
def budget : Nat := 3000000

/-- The world in which a program runs, with handles for its input, its output and
its complaints. -/
def world (disk : Disk) : World :=
  { World.ofDisk disk budget with
    handles := [(0, .nothing), (1, .collector []), (2, .collector [])]
    nextHandle := 3
    nextProcess := 4242 }

/-- The process of a program that was just started. -/
def process (folder : Text) : Process :=
  { number := 4241, shell := 4241, folder, mask := 0o022, name := [], args := []
    bindings := [("PATH".toList, ⟨some (Raw.ofText toolFolder), true, false⟩)]
    functions := [], aliases := [], options := [], status := 0, asked := 0, line := 0
    lineAhead := 1, functionLine := none, command := none, loops := 0, calls := 0, hidden := [], traps := []
    channels := [(0, 0), (1, 1), (2, 2)], said := [], texts := [], nextText := 0, waiting := []
    ended := [], lastJob := none, nextArg := 1, nextLetter := 0, found := [] }

/-- Runs a program that was found at a path; answers how it ended and the disk it
leaves. -/
def toEnd (name path : Raw) (args : List Raw) (program : Program) (folder : Text) (disk : Disk) :
    Ending × Disk :=
  let run := exec depthLimit
  let body := inProcess run (process folder) (start run deepest name path args program)
  let (result, s) := body.run ⟨world disk, process folder⟩
  let world := s.world.settled
  let code := match result with
    | .ok (.exited status) => some status
    | _ => none
  (⟨code, (world.collected 1).bytes, (world.collected 2).bytes⟩, world.disk)

end Run

/-- Whether words can be handed to a program. -/
def isClean (invocation : Invocation) : Bool :=
  (invocation.program :: invocation.folder :: invocation.args).all fun t => '\x00' ∉ t

/-- Runs programs that are scripts for the shell or utilities of the system. -/
def launcher : Launcher := fun invocation disk =>
  if !isClean invocation then (.error .nulInArgument, disk)
  else
    match disk.find true invocation.folder with
    | .error fault => (.error fault, disk)
    | .ok (_, .folder) =>
      let name := Raw.ofText invocation.program
      match Program.resolve disk invocation.folder (Raw.ofText toolFolder) name with
      | .error fault => (.error fault, disk)
      | .ok (path, program) =>
        let args := invocation.args.map Raw.ofText
        let (ending, disk) := Run.toEnd name path args program invocation.folder disk
        (.ok ending, disk)
    | .ok _ => (.error .notFolder, disk)

end SiteScaffold.Shell

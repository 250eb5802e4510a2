/-
Utilities that make, remove, mark and show single entries of a disk.
-/
import SiteScaffold.Shell.Builtin.Folders
import SiteScaffold.Shell.Printing
import SiteScaffold.Shell.Utility.Options

namespace SiteScaffold.Shell

namespace Utility

/-- The entry a name leads to, as seen from the folder the program is in. -/
def find (follow : Bool) (name : Raw) : Task (Except Fault (Key × Entry)) := do
  let disk ← Task.disk
  return disk.find follow (← Task.path name)

/-- A name without the slashes it ends in. -/
def bareName (name : Raw) : Raw := Path.bare name

/-- The last part of a name. -/
def lastPart (name : Raw) : Raw :=
  match Text.split '/' (bareName name) with
  | [] => []
  | parts => if bareName name = "/" then "/" else parts.getLast?.getD []

/-- Two names joined by a slash. -/
def joined (folder name : Raw) : Raw :=
  if folder.getLast? = some '/' then folder ++ name else folder ++ '/' :: name

-- ========================================================== folders

/-- Makes a folder and tells of it. -/
def makeFolder (program name : Raw) (tells : Bool) : Task Nat := do
  let path ← Task.path name
  let status ← change program ("cannot create directory " ++ quote name) (·.makeFolder path)
  if status = 0 && tells then Task.sayLine (program ++ ": created directory " ++ quote name)
  return status

/-- The names of the folders on the way to a name, the first first. -/
def waypoints (name : Raw) : List Raw :=
  let parts := Text.split '/' (bareName name)
  (List.range parts.length).filterMap fun i =>
    let front := Text.join "/" (parts.take (i + 1))
    if parts.getD i [] = [] || front = [] then none else some front

/-- Makes the folders on the way to a name that are missing. -/
def makeFolders (program name : Raw) (tells : Bool) : Task Nat := do
  if name = [] then return ← makeFolder program name false
  (waypoints name).foldlM (fun status way => do
    if status ≠ 0 then return status
    let disk ← Task.disk
    let path ← Task.path way
    if disk.isFolder path then return 0
    match disk.find false path with
    | .ok _ =>
      let isLast := way.length = (bareName name).length
      let reason : Raw := if isLast then "File exists" else "Not a directory"
      complain program ("cannot create directory " ++ quote way ++ ": " ++ reason)
      return 1
    | .error _ => makeFolder program way tells) 0

def mkdir : Utility :=
  withOptions [flag 'p' "parents", flag 'v' "verbose", valued 'm' "mode"] 1 fun program g => do
    if g.operands.isEmpty then return ← misused program "missing operand" 1
    forEach g.operands fun name =>
      if g.has 'p' then makeFolders program name (g.has 'v')
      else makeFolder program name (g.has 'v')

/-- Removes an empty folder. -/
def removeFolder (program name : Raw) (inner : Bool) (g : Given) : Task Nat := do
  if g.has 'v' then Task.sayLine (program ++ ": removing directory, " ++ quote name)
  let path ← Task.path name
  match (← Task.disk).removeFolder path with
  | .ok disk =>
    Task.setDisk disk
    return 0
  | .error fault =>
    if fault = .notEmpty && g.has 'i' then return 0
    let doing : Raw := if inner then "failed to remove directory " else "failed to remove "
    complain program (doing ++ quote name ++ ": " ++ wording fault)
    return 1

def rmdir : Utility :=
  withOptions [flag 'p' "parents", flag 'v' "verbose", flag 'i' "ignore-fail-on-non-empty"] 1
    fun program g => do
      if g.operands.isEmpty then return ← misused program "missing operand" 1
      forEach g.operands fun name => do
        let status ← removeFolder program name false g
        if status ≠ 0 || !g.has 'p' then return status
        let above := (waypoints name).reverse.drop 1
        above.foldlM (fun status way => do
          if status ≠ 0 then return status
          removeFolder program way true g) 0

-- =========================================================== removal

/-- Tells of an entry that was removed, and first of what was below it. -/
def tellRemoved (disk : Disk) (place : Key) (name : Raw) (entry : Entry) : Task Unit := do
  let below := (disk.below place).reverse
  let tell := fun (name : Raw) (entry : Entry) =>
    Task.sayLine ((if entry.isFolder then "removed directory " else "removed ") ++ shellQuote name)
  below.forM fun (rest, e) => tell (joined name (Raw.ofText (Text.join ['/'] rest))) e
  tell name entry

/-- Removes an entry. -/
def remove (program name : Raw) (g : Given) : Task Nat := do
  let refuse := fun (fault : Fault) => do
    complain program ("cannot remove " ++ shellQuote name ++ ": " ++ wording fault)
    return 1
  if lastPart name = "." || lastPart name = ".." then
    complain program ("refusing to remove '.' or '..' directory: skipping " ++ shellQuote name)
    return 1
  let path ← Task.path name
  let disk ← Task.disk
  match disk.find false path with
  | .error fault =>
    if g.has 'f' && (fault = .missing || fault = .notFolder) then return 0
    refuse fault
  | .ok (place, entry) =>
    let deep := g.has 'r' || g.has 'R'
    if entry.isFolder && !deep && !g.has 'd' then return ← refuse .isFolder
    let removed : Except Fault Disk :=
      if entry.isFolder then (if deep then disk.clear place else disk).removeFolder path
      else .ok (disk.erase place)
    match removed with
    | .ok after =>
      Task.setDisk after
      if g.has 'v' then tellRemoved disk place name entry
      return 0
    | .error fault =>
      if deep then Task.setDisk (disk.clear place)
      refuse fault

def rm : Utility :=
  withOptions [flag 'r' "recursive", flag 'R' "", flag 'f' "force", flag 'v' "verbose",
      flag 'd' "dir", flag 'i' "", flag 'I' ""] 1 fun program g => do
    if g.operands.isEmpty then
      return ← if g.has 'f' then pure 0 else misused program "missing operand" 1
    forEach g.operands fun name => remove program name g

-- ================================================ files and their modes

def touch : Utility :=
  withOptions [flag 'a' "", flag 'm' "", flag 'c' "no-create", valued 't' "", valued 'd' "date",
      valued 'r' "reference", flag 'h' "no-dereference", flag 'f' ""] 1 fun program g => do
    if g.operands.isEmpty then return ← misused program "missing file operand" 1
    forEach g.operands fun name => do
      let path ← Task.path name
      let disk ← Task.disk
      match disk.find true path with
      | .ok _ => return 0
      | .error fault =>
        if g.has 'c' && fault = .missing then return 0
        if fault = .missing && Path.endsInSlash name then
          complain program ("setting times of " ++ shellQuote name ++ ": " ++ wording fault)
          return 1
        change program ("cannot touch " ++ shellQuote name) (·.write path (.text []))

/-- The mode of an entry as far as it is known. -/
def modeOf : Entry → Nat
  | .file false _ => 0o644
  | _ => 0o755

/-- The mode that a word asks for, where `mode` is the one so far. -/
def askedMode? (mode : Nat) (word : Raw) : Option Nat :=
  if word ≠ [] && word.all Printing.isOctal then some (Arithmetic.value 8 word)
  else Builtin.modeOf? mode word

/-- Whether a word that starts with a dash is a mode. -/
def isDashedMode (word : Raw) : Bool :=
  match word with
  | '-' :: c :: more => (c :: more).all (· ∈ "rwxXstugo,+-=01234567".toList)
  | _ => false

def chmod : Utility := fun program args => do
  let dashed := args.filter isDashedMode
  let known := [flag 'R' "recursive", flag 'v' "verbose", flag 'c' "changes", flag 'f' "silent"]
  let body : Utility := withOptions known 1 fun program g => do
    let words := dashed ++ g.operands
    match words with
    | [] => misused program "missing operand" 1
    | [mode] => misused program ("missing operand after " ++ quote mode) 1
    | mode :: names =>
      if (askedMode? 0 mode).isNone then
        return ← misused program ("invalid mode: " ++ quote mode) 1
      forEach names fun name => do
        match ← find true name with
        | .error fault =>
          if g.has 'f' then return 1
          let isDangling := (← find false name).toOption.isSome && fault = .missing
          if isDangling then complain program ("cannot operate on dangling symlink " ++ quote name)
          else complain program ("cannot access " ++ shellQuote name ++ ": " ++ wording fault)
          return 1
        | .ok (place, entry) =>
          let disk ← Task.disk
          let all := (place, entry) :: if g.has 'R' then
              (disk.below place).map fun (rest, e) => (place ++ rest, e) else []
          Task.setDisk (all.foldl (fun disk (place, entry) =>
            match entry with
            | .file _ content =>
              let mode := (askedMode? (modeOf entry) mode).getD 0
              disk.insert place (.file (mode &&& 0o111 ≠ 0) content)
            | _ => disk) disk)
          return 0
  body program (args.filter (!isDashedMode ·))

-- ============================================================= links

/-- Makes a link, or a second entry for a file. -/
def link (program : Raw) (g : Given) (source name : Raw) : Task Nat := do
  let symbolic := g.has 's'
  let path ← Task.path name
  let kind : Raw := if symbolic then "symbolic" else "hard"
  let disk ← Task.disk
  let refuse := fun (reason : Raw) => do
    complain program reason
    return 1
  let entry ← if symbolic then pure (Except.ok (Entry.link (Raw.text source)))
    else match ← find (g.has 'L') source with
      | .ok (_, .folder) =>
        pure (Except.error (shellQuote source ++ ": hard link not allowed for directory"))
      | .ok (_, entry) => pure (Except.ok entry)
      | .error fault =>
        pure (Except.error ("failed to access " ++ shellQuote source ++ ": " ++ wording fault))
  match entry with
  | .error reason => refuse reason
  | .ok entry =>
    let doing := "failed to create " ++ kind ++ " link " ++ shellQuote name
    let disk := match disk.find false (Path.bare path) with
      | .ok (place, old) => if g.has 'f' && !old.isFolder then disk.erase place else disk
      | .error _ => disk
    match disk.locate false path with
    | .ok (.free place false) =>
      Task.setDisk (disk.insert place entry)
      if g.has 'v' then
        let arrow : Raw := if symbolic then " -> " else " => "
        Task.sayLine (shellQuote name ++ arrow ++ shellQuote source)
      return 0
    | .ok (.free _ true) => refuse (doing ++ ": No such file or directory")
    | .ok _ => refuse (doing ++ ": File exists")
    | .error fault =>
      if symbolic then refuse (doing ++ ": " ++ wording fault)
      else refuse (doing ++ " => " ++ shellQuote source ++ ": " ++ wording fault)

/-- Splits operands into sources and the target, which may be a folder that takes
them all; answers each source with the name it gets. -/
def destinations (program : Raw) (g : Given) (lone : Bool) :
    Task (Except Nat (List (Raw × Raw))) := do
  let inside := fun (folder : Raw) (sources : List Raw) =>
    sources.map fun source => (source, joined folder (lastPart source))
  let isFolder := fun (name : Raw) => do
    match ← find (!g.has 'n' || !lone) name with
    | .ok (_, .folder) => return true
    | _ => return false
  match g.value? 't' with
  | some folder =>
    if g.operands.isEmpty then
      return .error (← misused program "missing file operand" 1)
    if ← isFolder folder then return .ok (inside folder g.operands)
    let fault := match ← find true folder with
      | .ok _ => Fault.notFolder
      | .error fault => fault
    complain program ("target directory " ++ shellQuote folder ++ ": " ++ wording fault)
    return .error 1
  | none =>
    match g.operands with
    | [] => return .error (← misused program "missing file operand" 1)
    | [one] =>
      if lone then return .ok [(one, if g.has 'T' then one else lastPart one)]
      return .error
        (← misused program ("missing destination file operand after " ++ shellQuote one) 1)
    | operands =>
      let target := operands.getLast?.getD []
      let sources := operands.dropLast
      if g.has 'T' then
        match operands with
        | [source, target] => return .ok [(source, target)]
        | _ :: _ :: extra :: _ =>
          return .error (← misused program ("extra operand " ++ shellQuote extra) 1)
        | _ => return .error 1
      if ← isFolder target then return .ok (inside target sources)
      match sources with
      | [source] => return .ok [(source, target)]
      | _ =>
        let fault := match ← find true target with
          | .ok _ => Fault.notFolder
          | .error fault => fault
        complain program ("target " ++ shellQuote target ++ ": " ++ wording fault)
        return .error 1

def ln : Utility :=
  withOptions [flag 's' "symbolic", flag 'f' "force", flag 'n' "no-dereference", flag 'v' "verbose",
      flag 'T' "no-target-directory", valued 't' "target-directory",
      flag 'L' "logical", flag 'P' "physical", flag 'i' "interactive"] 1 fun program g => do
    match ← destinations program g true with
    | .error status => return status
    | .ok pairs =>
      pairs.foldlM (fun status (source, name) => do
        return max status (← link program g source name)) 0

/-- The path of the place that a name leads to through all links; the last part
may be missing if that is allowed. -/
def wholePath? (mayMiss : Bool) (name : Raw) : Task (Except Fault Text) := do
  let disk ← Task.disk
  let path ← Task.path name
  match disk.locate true path with
  | .ok (.entry place _) => return .ok (Builtin.placePath place)
  | .ok (.free place _) =>
    return if mayMiss then .ok (Builtin.placePath place) else .error .missing
  | .ok (.slashed _) => return .error .notFolder
  | .error fault => return .error fault

def readlink : Utility :=
  withOptions [flag 'f' "canonicalize", flag 'e' "canonicalize-existing",
      flag 'm' "canonicalize-missing", flag 'n' "no-newline", flag 'q' "quiet", flag 's' "silent",
      flag 'v' "verbose", flag 'z' "zero"] 1 fun program g => do
    if g.operands.isEmpty then return ← misused program "missing operand" 1
    forEach g.operands fun name => do
      let found ← if g.has 'f' || g.has 'e' || g.has 'm' then wholePath? (!g.has 'e') name
        else match ← find false name with
          | .ok (_, .link target) => pure (.ok target)
          | .ok _ => pure (.error .invalid)
          | .error fault => pure (.error fault)
      match found with
      | .ok target =>
        Task.say (Raw.ofText target ++ (if g.has 'n' then [] else ['\n']))
        return 0
      | .error fault =>
        if g.has 'v' then complain program (shellQuoteIfNeeded name ++ ": " ++ wording fault)
        return 1

def realpath : Utility :=
  withOptions [flag 'e' "canonicalize-existing", flag 'm' "canonicalize-missing",
      flag 's' "no-symlinks", flag 'q' "quiet", flag 'L' "logical", flag 'P' "physical",
      flag 'z' "zero"] 1 fun program g => do
    if g.operands.isEmpty then return ← misused program "missing operand" 1
    forEach g.operands fun name => do
      match ← wholePath? (!g.has 'e') name with
      | .ok target =>
        Task.sayLine (Raw.ofText target)
        return 0
      | .error fault =>
        if !g.has 'q' then complain program (shellQuoteIfNeeded name ++ ": " ++ wording fault)
        return 1

end Utility

end SiteScaffold.Shell

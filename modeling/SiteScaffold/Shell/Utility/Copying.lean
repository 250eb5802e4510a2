/-
Utilities that copy and move entries of a disk, one by one or with all that is
below them.
-/
import SiteScaffold.Shell.Utility.Entries

namespace SiteScaffold.Shell

namespace Utility

/-- How entries are copied: with all below them, without following links on the way
and at the start, over what is there, and whether it is told. -/
structure CopyMode where
  deep : Bool
  follow : Bool
  followStart : Bool
  keep : Bool
  force : Bool
  tell : Bool

/-- Tells what was copied where. -/
def tellCopied (source name : Raw) : Task Unit :=
  Task.sayLine (shellQuote source ++ " -> " ++ shellQuote name)

/-- Copies a file or link to a name that leads to a place of its own or to none. -/
def copyFile (program : Raw) (mode : CopyMode) (source name : Raw) (entry : Entry) :
    Task Nat := do
  let disk ← Task.disk
  let path ← Task.path name
  let done : Task Nat := do
    if mode.tell then tellCopied source name
    return 0
  match entry with
  | .link _ =>
    match disk.locate false path with
    | .ok (.free place false) =>
      Task.setDisk (disk.insert place entry)
      done
    | .ok (.entry place (.file _ _)) | .ok (.entry place (.link _)) =>
      Task.setDisk (disk.insert place entry)
      done
    | .error fault =>
      complain program ("cannot create symbolic link " ++ shellQuote name ++ ": " ++ wording fault)
      return 1
    | _ =>
      complain program ("cannot overwrite directory " ++ shellQuote name ++ " with non-directory")
      return 1
  | .folder => return 0
  | .file executable content =>
    let refuse := fun (reason : Raw) => do
      complain program ("cannot create regular file " ++ shellQuote name ++ ": " ++ reason)
      return 1
    match disk.locate true path with
    | .ok (.entry place (.file old _)) =>
      Task.setDisk (disk.insert place (.file (if mode.keep then executable else old) content))
      done
    | .ok (.free place false) =>
      if (disk.find false path).toOption.isSome then
        complain program ("not writing through dangling symlink " ++ shellQuote name)
        return 1
      Task.setDisk (disk.insert place (.file executable content))
      done
    | .ok (.free _ true) => refuse "Not a directory"
    | .ok (.slashed _) => refuse "Not a directory"
    | .ok _ =>
      complain program ("cannot overwrite directory " ++ shellQuote name ++ " with non-directory")
      return 1
    | .error fault => refuse (wording fault)

/-- Copies an entry, with what is below it down to a depth. `top` is where the
first copy was put, which is not copied itself. -/
def copy (program : Raw) (mode : CopyMode) (depth : Nat) (start : Bool) (top : Option Key)
    (source name : Raw) : Task Nat := do
  match depth with
  | 0 => return 1
  | depth + 1 =>
    let follow := if start then mode.followStart else mode.follow
    match ← find follow source with
    | .error fault =>
      complain program ("cannot stat " ++ shellQuote source ++ ": " ++ wording fault)
      return 1
    | .ok (place, entry) =>
      let target ← find true name
      let lying ← find false name
      match target with
      | .ok (other, _) =>
        if other = place && !entry.isFolder then
          complain program
            (shellQuote source ++ " and " ++ shellQuote name ++ " are the same file")
          return 1
      | .error _ => pure ()
      if !entry.isFolder then return ← copyFile program mode source name entry
      if !mode.deep then
        complain program ("-r not specified; omitting directory " ++ shellQuote source)
        return 1
      if start then
        match lying with
        | .ok (_, .folder) | .error _ => pure ()
        | .ok _ =>
          if (target.toOption.map (·.2.isFolder)) ≠ some true || !follow then
            complain program ("cannot overwrite non-directory " ++ shellQuote name
              ++ " with directory " ++ shellQuote source)
            return 1
      else
        match target with
        | .ok (_, .folder) | .error _ => pure ()
        | .ok _ =>
          complain program ("cannot overwrite non-directory " ++ shellQuote name
            ++ " with directory " ++ shellQuote source)
          return 1
      let disk ← Task.disk
      let entries := disk.children place
      let made ← match target with
        | .ok (other, _) => pure (Except.ok (other, false))
        | .error _ => do
          match disk.locate true (Path.bare (← Task.path name)) with
          | .ok (.free other _) => pure (Except.ok (other, true))
          | .ok _ => pure (Except.error Fault.alreadyThere)
          | .error fault => pure (Except.error fault)
      match made with
      | .error fault =>
        complain program ("cannot create directory " ++ shellQuote name ++ ": " ++ wording fault)
        return 1
      | .ok (other, isNew) =>
        if isNew then
          Task.setDisk (disk.insert other .folder)
          if mode.tell then tellCopied source name
        let top := if start then some other else top
        let intoItself := place.within other
        let status ← entries.foldlM (fun status (child, _) => do
          if top = some (place ++ [child]) then return status
          let child := Raw.ofText child
          return max status
            (← copy program mode depth false top (joined source child) (joined name child))) 0
        if start && intoItself then
          complain program ("cannot copy a directory, " ++ shellQuote source ++ ", into itself, "
            ++ shellQuote name)
          return 1
        return status

/-- The greatest depth of entries below one another. -/
def deepest : Nat := 2000

def cp : Utility :=
  withOptions [flag 'r' "recursive", flag 'R' "", flag 'a' "archive", flag 'd' "",
      flag 'P' "no-dereference", flag 'L' "dereference", flag 'H' "", flag 'p' "",
      flag 'f' "force", flag 'n' "no-clobber", flag 'v' "verbose",
      valued 't' "target-directory", flag 'T' "no-target-directory", flag 'i' "interactive",
      flag 'u' "update"] 1 fun program g => do
    let deep := g.has 'r' || g.has 'R' || g.has 'a'
    let plain := g.has 'P' || g.has 'd' || g.has 'a'
    let mode : CopyMode :=
      { deep
        follow := g.has 'L' || (!deep && !plain)
        followStart := g.has 'L' || g.has 'H' || (!deep && !plain)
        keep := g.has 'p' || g.has 'a'
        force := g.has 'f'
        tell := g.has 'v' }
    match ← destinations program g false with
    | .error status => return status
    | .ok pairs =>
      pairs.foldlM (fun status (source, name) => do
        let isThere := (← find false name).toOption.isSome
        if g.has 'n' && isThere then return status
        return max status (← copy program mode deepest true none source name)) 0

/-- Moves an entry to another name. -/
def moveTo (program : Raw) (g : Given) (source name : Raw) : Task Nat := do
  let refuse := fun (reason : Raw) => do
    complain program reason
    return 1
  let origin ← Task.path source
  let target ← Task.path name
  let disk ← Task.disk
  let doing := "cannot move " ++ shellQuote source ++ " to "
  match disk.find false origin with
  | .error fault => refuse ("cannot stat " ++ shellQuote source ++ ": " ++ wording fault)
  | .ok (place, entry) =>
    match disk.find false target with
    | .ok (other, old) =>
      if g.has 'n' then return 0
      if other = place then
        return ← refuse (shellQuote source ++ " and " ++ shellQuote name ++ " are the same file")
      if old.isFolder && !entry.isFolder then
        return ← refuse
          ("cannot overwrite directory " ++ shellQuote name ++ " with non-directory")
      if entry.isFolder && !old.isFolder then
        return ← refuse ("cannot overwrite non-directory " ++ shellQuote name ++ " with directory "
          ++ shellQuote source)
    | .error _ => pure ()
    match disk.move origin target with
    | .ok disk =>
      Task.setDisk disk
      if g.has 'v' then
        Task.sayLine ("renamed " ++ shellQuote source ++ " -> " ++ shellQuote name)
      return 0
    | .error .invalid =>
      refuse (doing ++ "a subdirectory of itself, " ++ shellQuote name)
    | .error fault => refuse (doing ++ shellQuote name ++ ": " ++ wording fault)

def mv : Utility :=
  withOptions [flag 'f' "force", flag 'n' "no-clobber", flag 'v' "verbose",
      valued 't' "target-directory", flag 'T' "no-target-directory", flag 'i' "interactive",
      flag 'u' "update"] 1 fun program g => do
    match ← destinations program g false with
    | .error status => return status
    | .ok pairs =>
      pairs.foldlM (fun status (source, name) => do
        return max status (← moveTo program g source name)) 0

end Utility

end SiteScaffold.Shell

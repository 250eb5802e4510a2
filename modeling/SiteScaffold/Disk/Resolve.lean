/-
From paths to places. A path is followed name by name from the root, through
links, up at `..`, until it ends at an entry or at a free place in a folder
that exists. At most forty links are followed.
-/
import SiteScaffold.Disk.Basic
import SiteScaffold.Disk.Fault
import SiteScaffold.Path

namespace SiteScaffold.Disk

/-- Where a path leads. -/
inductive Located where
  /-- To an entry. -/
  | entry (k : Key) (e : Entry)
  /-- To a file, though the path ends in a slash and so can only name a
  folder. -/
  | slashed (k : Key)
  /-- To a free place in an existing folder; `asFolder` tells that the path
  ends in a slash and so can only name a folder. -/
  | free (k : Key) (asFolder : Bool)
  deriving Repr, DecidableEq

/-- The longest name a folder takes, in bytes. -/
def longestName : Nat := 255

/-- The longest path the system takes, in bytes. -/
def longestPath : Nat := 4095

/-- Where the steps lead from a folder. A link at the end is followed only if `follow`
says so, and `through` tells where one leads from the folder it stands in, with the steps
behind it. -/
def locateSteps (disk : Disk) (follow : Bool)
    (through : Text → Key → List Text → Except Fault Located) (here : Key) :
    List Text → Except Fault Located
  | [] => .ok (.entry here .folder)
  | step :: rest =>
    if Path.isIdle step then disk.locateSteps follow through here rest
    else if step = ".." then disk.locateSteps follow through here.dropLast rest
    else if longestName < Text.byteSize step then .error .nameTooLong
    else
      match disk.lookup (here ++ [step]) with
      | none =>
        if rest.all (· = []) then .ok (.free (here ++ [step]) (!rest.isEmpty))
        else .error .missing
      | some .folder => disk.locateSteps follow through (here ++ [step]) rest
      | some (.file executable content) =>
        if rest.isEmpty then .ok (.entry (here ++ [step]) (.file executable content))
        else if rest.all (· = []) then .ok (.slashed (here ++ [step]))
        else .error .notFolder
      | some (.link target) =>
        if rest.isEmpty && !follow then .ok (.entry (here ++ [step]) (.link target))
        else through target here rest

/-- Where the steps lead from a folder, with `links` more links to follow. -/
def locateFrom (disk : Disk) (follow : Bool) (links : Nat) :
    Key → List Text → Except Fault Located :=
  disk.locateSteps follow
    (match links with
    | 0 => fun _ _ _ => .error .tooManyLinks
    | links + 1 => fun target here rest =>
      if target = [] then .error .missing
      else
        disk.locateFrom follow links (if Path.isAbsolute target then [] else here)
          (Path.segments target ++ rest))

/-- Where a path leads. -/
def locate (disk : Disk) (follow : Bool) (path : Text) : Except Fault Located :=
  if '\x00' ∈ path then .error .nulInName
  else if path = [] then .error .missing
  else if longestPath < Text.byteSize path then .error .nameTooLong
  else disk.locateFrom follow 40 [] (Path.segments path)

/-- The entry a path leads to. -/
def find (disk : Disk) (follow : Bool) (path : Text) : Except Fault (Key × Entry) := do
  match ← disk.locate follow path with
  | .entry k e => .ok (k, e)
  | .slashed _ => .error .notFolder
  | .free _ _ => .error .missing

/-- The entry a path leads to through all links, if it leads to one. -/
def entry? (disk : Disk) (path : Text) : Option Entry :=
  (disk.find true path).toOption.map (·.2)

/-- Whether a path leads to an entry. -/
def holds (disk : Disk) (path : Text) : Bool := (disk.entry? path).isSome

/-- Whether a path leads to a file. -/
def isFile (disk : Disk) (path : Text) : Bool := (disk.entry? path).any Entry.isFile

/-- Whether a path leads to a folder. -/
def isFolder (disk : Disk) (path : Text) : Bool := (disk.entry? path).any Entry.isFolder

end SiteScaffold.Disk

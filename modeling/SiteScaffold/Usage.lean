/-
Usages: the files of a project that still refer to something about to be
removed. A query says in which folders and which files to look, and for which
patterns; the search only reads.
-/
import SiteScaffold.Project

namespace SiteScaffold.Usage

open Pattern

/-- A place to look in: the files below a folder whose paths end in a suffix,
and the patterns any of which is a reference. -/
structure Target where
  folder : Text
  suffix : Text
  patterns : List Pattern

-- ========================================================= queries

/-- Any character but a quotation mark. -/
def unquoted (c : Char) : Bool := !isQuote c

/-- A quoted list of tokens, one of them the identifier of the controller. -/
def tokensWith (name : Text) : Pattern :=
  quote ++ optional (many unquoted ++ one Text.isBlank)
    ++ (literal name ||| literal (Name.stimulusIdentifier name))
    ++ optional (one Text.isBlank ++ many unquoted) ++ quote

/-- A `data-controller` attribute that names the controller. -/
def inAttribute (name : Text) : Pattern := "data-controller=" ++ tokensWith name

/-- A `data:` hash that names the controller. -/
def inHelper (name : Text) : Pattern :=
  "data:" ++ slack ++ "\x7b" ++ many (· ≠ '}') ++ "controller:" ++ slack ++ tokensWith name
    ++ many (· ≠ '}') ++ "\x7d"

/-- Where a Stimulus controller may be used. -/
def stimulus (name : Text) : List Target :=
  [⟨"app/views", Project.viewSuffix, [inAttribute name, inHelper name]⟩]

/-- Where a pinned package may be used. -/
def pin (package : Text) : List Target :=
  [⟨"app/javascript", ".js",
      ["from" ++ gap ++ quoted package,
       "import" ++ gap ++ quoted package,
       "import" ++ gap ++ oneOrMore inLine ++ gap ++ "from" ++ gap ++ quoted package]⟩,
   ⟨"app/views", Project.viewSuffix, [quoted package]⟩]

-- ========================================================== search

/-- Whether a file is one to look into, and holds a reference. -/
def refers (target : Target) (disk : Disk) (visit : Disk.Visit) : Bool :=
  visit.entry.isFile && Text.endsWith visit.path target.suffix
    && match disk.readText visit.path with
      | .ok content => target.patterns.any (·.occursIn content)
      | .error _ => false

/-- The files with references in one place. -/
def findIn (root : Text) (target : Target) : Edit (List Text) := do
  let folder := Path.join root target.folder
  if !(← Edit.ask (·.isFolder folder)) then return []
  let visits ← Edit.walk folder
  let disk ← get
  return (visits.filter (refers target disk)).map (·.path)

/-- The paths that are not the same as an earlier one: those with the same parts
are. -/
def firsts (paths : List Text) : List Text :=
  paths.foldl (fun seen path =>
    if seen.any (Path.parts · = Path.parts path) then seen else seen ++ [path]) []

/-- The files with references, each once, in the order in which they are
found. -/
def find (root : Text) (targets : List Target) : Edit (List Text) := do
  let found ← targets.mapM (findIn root)
  return firsts found.flatten

end SiteScaffold.Usage

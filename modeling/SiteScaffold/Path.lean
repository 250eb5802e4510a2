/-
Path texts: how they are joined, taken apart and shown. A path is written with
slashes; repeated slashes and `.` in the middle name nothing, a `.` may lead a
relative path, and `..` names the parent. Nothing here looks at a disk.
-/
import SiteScaffold.Text.Basic

namespace SiteScaffold.Path

/-- Whether the path ends in a slash, and so can only name a folder. -/
def endsInSlash (path : Text) : Bool := path.getLast? = some '/'

/-- The path without the slashes it ends in; the root keeps one. -/
def bare (path : Text) : Text :=
  match path.reverse.dropWhile (· = '/') with
  | [] => path.take 1
  | back => back.reverse

/-- What one step of a path names. -/
inductive Part where
  | root
  | here
  | up
  | name (n : Text)
  deriving Repr, DecidableEq

/-- Whether the path starts at the root. -/
def isAbsolute (path : Text) : Bool := path.head? = some '/'

/-- The steps between the slashes, those that name nothing included. -/
def segments (path : Text) : List Text := Text.split '/' path

/-- Whether a segment names nothing. -/
def isIdle (segment : Text) : Bool := segment = [] || segment = ['.']

/-- The part a segment stands for that names something. -/
def Part.ofSegment (segment : Text) : Part := if segment = ".." then .up else .name segment

/-- The parts of a path. -/
def parts (path : Text) : List Part :=
  let named := ((segments path).filter (!isIdle ·)).map Part.ofSegment
  if isAbsolute path then .root :: named
  else if (segments path).head? = some ['.'] then .here :: named
  else named

/-- The path `relative` taken from `base`. -/
def join (base relative : Text) : Text :=
  if isAbsolute relative then relative
  else if base = [] || base.getLast? = some '/' then base ++ relative
  else base ++ ['/'] ++ relative

/-- Segments without the idle ones at both ends, written with slashes. -/
def ofSegments (segments : List Text) : Text :=
  Text.join ['/'] (((segments.dropWhile isIdle).reverse.dropWhile isIdle).reverse)

/-- The segments left of a path after taking from its front one segment for
each given name, passing over the idle ones. -/
def afterNames? : (names segments : List Text) → Option (List Text)
  | [], segments => some segments
  | _ :: _, [] => none
  | name :: names, segment :: segments =>
    if isIdle segment then afterNames? (name :: names) segments
    else if segment = name then afterNames? names segments
    else none

/-- The rest of a path below `base`, if it lies there. -/
def below? (base path : Text) : Option Text :=
  if isAbsolute base = isAbsolute path then
    (afterNames? ((segments base).filter (!isIdle ·)) (segments path)).map ofSegments
  else none

/-- The name of what the path leads to, unless it ends in `..` or at the
root. -/
def fileName? (path : Text) : Option Text :=
  match (parts path).getLast? with
  | some (.name n) => some n
  | _ => none

/-- The path without its last part, if it has one. -/
def parent? (path : Text) : Option Text :=
  match (parts path).reverse with
  | [] | .root :: _ => none
  | [.here] => some []
  | [_, .here] => some ['.']
  | _ :: _ =>
    let back := ((segments path).reverse.dropWhile isIdle).drop 1
    let front := (back.dropWhile isIdle).reverse
    some (if isAbsolute path && (front.dropWhile isIdle).isEmpty then ['/']
      else Text.join ['/'] front)

/-- The path with its last name replaced by `name`; a path that ends in none
is extended instead. -/
def withFileName (path name : Text) : Text :=
  match fileName? path with
  | some _ => join ((parent? path).getD []) name
  | none => join path name

/-- The part of a file name after its last dot, if something precedes the
dot. -/
def extension? (path : Text) : Option Text := do
  let name ← fileName? path
  let back := name.reverse
  if !back.contains '.' then none
  else
    let stem := (back.dropWhile (· ≠ '.')).drop 1
    if stem.isEmpty then none else some (back.takeWhile (· ≠ '.')).reverse

end SiteScaffold.Path

/-
The commands of the shell that go to other folders and tell where the shell is.
The shell keeps the path by which it came to its folder.
-/
import SiteScaffold.Shell.Builtin.Options

namespace SiteScaffold.Shell

namespace Builtin

/-- The names that a path leads through when `..` goes back by one name. -/
def namesThrough (names : List Text) (path : Text) : List Text :=
  (Path.segments path).foldl (fun (names : List Text) segment =>
    if Path.isIdle segment then names
    else if segment = ".." then names.dropLast
    else names ++ [segment]) names

/-- The path from the root by the names that lead from a folder to a path. -/
def plainPath (folder path : Text) : Text :=
  let names := namesThrough (if Path.isAbsolute path then [] else namesThrough [] folder) path
  '/' :: Text.join ['/'] names

/-- The path of a place, without links. -/
def placePath (place : Key) : Text := '/' :: Text.join ['/'] place

/-- Goes to a folder, as a program that looks at no links or at all of them;
answers whether it is there. -/
def enter (physical : Bool) (path : Raw) : Task Bool := do
  let p ← Task.own
  let disk ← Task.disk
  let target := Raw.text path
  let logical := if physical then Path.join p.folder target else plainPath p.folder target
  match disk.find true logical with
  | .ok (place, .folder) =>
    let folder := if physical then placePath place else logical
    let set := fun (p : Process) (name : Raw) (path : Text) =>
      p.putVariable name ⟨some (Raw.ofText path), true, false⟩
    Task.changeOwn fun p => set (set { p with folder } "OLDPWD" p.folder) "PWD" folder
    return true
  | _ => return false

/-- Whether a path starts at a folder that it names: the root, this one or the one
above. -/
def isAnchored (path : Raw) : Bool :=
  match Path.segments path with
  | first :: rest => (first = [] && !rest.isEmpty) || first = "." || first = ".."
  | [] => false

/-- Goes to another folder. -/
def cd (args : List Raw) : Task Nat := do
  let (letters, operands) ← options ['P', 'L'] args
  let physical := letters.getLast?.any (·.1 = 'P')
  let p ← Task.own
  let isBack := operands.head? = some ['-']
  let target := match operands with
    | [] => p.valueOf "HOME"
    | path :: _ => if isBack then p.valueOf "OLDPWD" else path
  let tell : Task Unit := do Task.sayLine (Raw.ofText (← Task.own).folder)
  if isAnchored target then
    if ← enter physical target then
      if isBack then tell
      return 0
  else
    let path : Raw := if target = [] then ['.'] else target
    let disk ← Task.disk
    let places := ((p.getVariable? "CDPATH").bind (·.value)).map (Text.split ':')
    let through := (places.getD []).find? fun place =>
      disk.isFolder (Path.join p.folder (Raw.text (Path.join place path)))
    let found := match through with
      | some place => Path.join place path
      | none => path
    if ← enter physical found then
      if isBack || through.any (· ≠ []) then tell
      return 0
  Task.refuse ("can't cd to " ++ target)

/-- Tells the folder the shell is in. -/
def pwd (args : List Raw) : Task Nat := do
  let (letters, _) ← options ['P', 'L'] args
  let p ← Task.own
  let physical := letters.getLast?.any (·.1 = 'P')
  let disk ← Task.disk
  let folder := match physical, disk.find true p.folder with
    | true, .ok (place, _) => placePath place
    | _, _ => p.folder
  Task.sayLine (Raw.ofText folder)
  return 0

/-- A mask of permissions in octal digits. -/
def octalMask (mask : Nat) : Raw :=
  let digits := Nat.toDigits 8 mask
  List.replicate (4 - digits.length) '0' ++ digits

/-- The permissions that a mask leaves. -/
def maskLetters (mask : Nat) : Raw :=
  let group := fun (name : Char) (shift : Nat) =>
    let left := 7 - mask / Nat.pow 2 shift % 8
    [name, '='] ++ (if left / 4 % 2 = 1 then ['r'] else []) ++ (if left / 2 % 2 = 1 then ['w'] else [])
      ++ (if left % 2 = 1 then ['x'] else [])
  group 'u' 6 ++ [','] ++ group 'g' 3 ++ [','] ++ group 'o' 0

/-- The bits that letters of permission stand for, in each group. -/
def permissionBits (letters : Raw) : Nat :=
  letters.foldl (fun n c => n ||| (if c = 'r' then 4 else if c = 'w' then 2 else
    if c = 'x' || c = 'X' then 1 else 0)) 0

/-- The mode that a clause such as `u+x` makes of another one, if it is one. -/
def changeMode? (mode : Nat) (clause : Raw) : Option Nat :=
  let who := clause.takeWhile (· ∈ ['u', 'g', 'o', 'a'])
  let all := who = [] || who.contains 'a'
  let groups := (if all || who.contains 'u' then [6] else [])
    ++ (if all || who.contains 'g' then [3] else []) ++ (if all || who.contains 'o' then [0] else [])
  let spread := fun (bits : Nat) => groups.foldl (fun n shift => n ||| bits * Nat.pow 2 shift) 0
  let rec go (fuel : Nat) (mode : Nat) (t : Raw) : Option Nat :=
    match fuel, t with
    | 0, _ => none
    | _, [] => some mode
    | fuel + 1, operator :: rest =>
      let letters := rest.takeWhile (· ∈ ['r', 'w', 'x', 'X', 's', 't', 'u', 'g', 'o'])
      let copied := if letters.contains 'u' then mode / 64 % 8 else
        if letters.contains 'g' then mode / 8 % 8 else if letters.contains 'o' then mode % 8 else 0
      let bits := spread (permissionBits letters ||| copied)
      let rest := rest.drop letters.length
      let cleared := fun (bits : Nat) => mode - (mode &&& bits)
      match operator with
      | '+' => go fuel (mode ||| bits) rest
      | '-' => go fuel (cleared bits) rest
      | '=' => go fuel (cleared (spread 7) ||| bits) rest
      | _ => none
  if clause.length = who.length then none else go clause.length mode (clause.drop who.length)

/-- The mode that clauses make of another one. -/
def modeOf? (mode : Nat) (clauses : Raw) : Option Nat :=
  (Text.split ',' clauses).foldl (fun mode clause => mode.bind (changeMode? · clause)) (some mode)

/-- Shows or sets the permissions that new files lack. -/
def umask (args : List Raw) : Task Nat := do
  let (letters, operands) ← options ['S'] args
  let p ← Task.own
  match operands with
  | [] =>
    Task.sayLine (if letters.isEmpty then octalMask p.mask else maskLetters p.mask)
    return 0
  | word :: _ =>
    if word.head?.any Char.isDigit then
      if word.all fun c => '0' ≤ c && c ≤ '7' then
        Task.changeOwn fun p => { p with mask := Arithmetic.value 8 word % 512 }
        return 0
      Task.refuse ("Illegal number: " ++ word)
    match modeOf? (511 - p.mask) word with
    | some mode =>
      Task.changeOwn fun p => { p with mask := 511 - mode }
      return 0
    | none => Task.refuse ("Illegal mode: " ++ word)

end Builtin

end SiteScaffold.Shell

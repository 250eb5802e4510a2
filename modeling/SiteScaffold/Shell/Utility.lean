/-
The utilities a system keeps in its folders of programs, by name.
-/
import SiteScaffold.Shell.Utility.Calculation
import SiteScaffold.Shell.Utility.Copying
import SiteScaffold.Shell.Utility.Lines
import SiteScaffold.Shell.Utility.Listing
import SiteScaffold.Shell.Utility.Words

namespace SiteScaffold.Shell

namespace Utility

/-- What `echo` writes as a program of its own, where escapes have to be asked
for. -/
def echo : Utility := fun _ args => do
  let isOption := fun (word : Raw) =>
    match word with
    | '-' :: c :: more => (c :: more).all (· ∈ ['n', 'e', 'E'])
    | _ => false
  let options := args.takeWhile isOption
  let words := Text.join " " (args.drop options.length)
  let letters := options.flatMap (·.drop 1)
  let asks := (letters.filter (· ≠ 'n')).getLast? = some 'e'
  let (out, ended) := if asks then Printing.escapes true words else (words, false)
  Task.say (if ended || letters.contains 'n' then out else out ++ ['\n'])
  return 0

/-- The wording of a complaint about a number, and whether it is only a warning. -/
def numberComplaint : Printing.Complaint → Raw × Bool
  | .notNumeric argument | .noCharacter argument =>
    (quote argument ++ ": expected a numeric value", false)
  | .incomplete argument => (quote argument ++ ": value not completely converted", false)
  | .tooLarge argument => (quote argument ++ ": Numerical result out of range", false)
  | .ignored rest =>
    ("warning: " ++ rest ++ ": character(s) following character constant have been ignored", true)

def printf : Utility := fun program args => do
  match args with
  | [] => misused program "missing operand" 1
  | format :: args =>
    let (out, complaints, halt, left) := Printing.printf .extended format args
    let complaints := complaints.map numberComplaint
    complaints.forM fun (message, _) => complain program message
    Task.say out
    match halt with
    | some (.unknown spelled) | some (.cut spelled) =>
      complain program (spelled ++ ": invalid conversion specification")
      return 1
    | some .tooWide => return 1
    | halt =>
      if halt.isNone then
        if let first :: _ := left then
          complain program ("warning: ignoring excess arguments, starting with " ++ quote first)
      return if complaints.all (·.2) then 0 else 1

/-- A condition as a program of its own. -/
def test (bracketed : Bool) : Utility := fun program args => do
  if bracketed && args.getLast? ≠ some [']'] then
    complain program "missing ']'"
    return 2
  let disk ← Task.disk
  let words := if bracketed then args.dropLast else args
  match Condition.holds (Builtin.factsOf disk (← Task.own)) words with
  | .ok holds => return if holds then 0 else 1
  | .error reason =>
    complain program reason
    return 2

/-- Tells the folder the program is in, without links. -/
def pwd : Utility := fun _ args => do
  let p ← Task.own
  let disk ← Task.disk
  let logical := args.contains "-L"
  match logical, disk.find true p.folder with
  | false, .ok (place, _) => Task.sayLine (Raw.ofText (Builtin.placePath place))
  | _, _ => Task.sayLine (Raw.ofText p.folder)
  return 0

/-- Does nothing and ends with a status. -/
def idle (status : Nat) : Utility := fun _ _ => return status

/-- The utilities by name. -/
def all : List (Raw × Utility) :=
  ([ ("[", test true), ("basename", basename), ("cat", cat), ("chmod", chmod), ("cp", cp),
    ("cut", cut), ("dirname", dirname), ("echo", echo), ("expr", expr), ("false", idle 1),
    ("head", head), ("ln", ln), ("ls", ls), ("mkdir", mkdir), ("mv", mv), ("printf", printf),
    ("pwd", pwd), ("readlink", readlink), ("realpath", realpath), ("rm", rm), ("rmdir", rmdir),
    ("seq", seq), ("sleep", idle 0), ("sort", sort), ("sync", idle 0), ("tail", tail), ("tee", tee),
    ("test", test false), ("touch", touch), ("tr", tr), ("true", idle 0), ("uniq", uniq),
    ("wc", wc) ] : List (String × Utility)).map fun (name, run) => (name.toList, run)

end Utility

end SiteScaffold.Shell

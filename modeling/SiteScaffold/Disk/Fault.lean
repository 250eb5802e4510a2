/-
What can go wrong when a path is looked up or an entry is read, made, moved or
started, with the wording the operating system gives it.
-/
import SiteScaffold.Text.Digit

namespace SiteScaffold

/-- A fault the system reports. -/
inductive Fault where
  | missing
  | notExecutable
  | denied
  | alreadyThere
  | notFolder
  | isFolder
  | invalid
  | nameTooLong
  | notEmpty
  | tooManyLinks
  | notText
  | nulInName
  | nulInArgument
  | noWholeTree
  deriving Repr, DecidableEq

namespace Fault

/-- The wording of a fault that has a number. -/
def numbered (text : Text) (number : Nat) : Text :=
  text ++ " (os error " ++ Text.ofNat number ++ ")"

/-- A fault in words. -/
def message : Fault → Text
  | missing => numbered "No such file or directory" 2
  | notExecutable => numbered "Exec format error" 8
  | denied => numbered "Permission denied" 13
  | alreadyThere => numbered "File exists" 17
  | notFolder => numbered "Not a directory" 20
  | isFolder => numbered "Is a directory" 21
  | invalid => numbered "Invalid argument" 22
  | nameTooLong => numbered "File name too long" 36
  | notEmpty => numbered "Directory not empty" 39
  | tooManyLinks => numbered "Too many levels of symbolic links" 40
  | notText => "stream did not contain valid UTF-8"
  | nulInName => "file name contained an unexpected NUL byte"
  | nulInArgument => "nul byte found in provided data"
  | noWholeTree => "failed to create whole tree"

end Fault

end SiteScaffold

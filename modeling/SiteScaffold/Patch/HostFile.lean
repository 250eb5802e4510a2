/-
Patching files on disk. A file is read, the fragment works out its new content,
and only a content that differs is written; what was written is read again, so
that the next patch is sure to see it.
-/
import SiteScaffold.Patch.Fragment
import SiteScaffold.Edit

namespace SiteScaffold.Patch

/-- What patching did to a file. -/
inductive Outcome where
  /-- The file was written. -/
  | applied
  /-- There was nothing to do. -/
  | unchanged
  deriving Repr, DecidableEq

namespace HostFile

/-- Writes a content and makes sure that it reads back. -/
def writeConfirmed (path : Text) (fragment : Fragment) (content : Text) : Edit Unit := do
  Edit.writeText path content
  if (← Edit.readText path) ≠ content then
    Edit.fail (.other ("Patching " ++ fragment.describe ++ " into " ++ path
      ++ " could not be confirmed: file content differs after writing"))

/-- Writes the content that a patch leads to, if it leads to one. -/
def settle (path : Text) (fragment : Fragment) : Option Text → Edit Outcome
  | some content => do
    writeConfirmed path fragment content
    return .applied
  | none => return .unchanged

/-- Puts a fragment into a file. -/
def insert (path : Text) (fragment : Fragment) : Edit Outcome := do
  let content ← Edit.readText path
  match fragment.insert content with
  | .ok patched => settle path fragment patched
  | .error refusal => Edit.fail (refusal.cause path)

/-- Takes a fragment out of a file. -/
def remove (path : Text) (fragment : Fragment) : Edit Outcome := do
  let content ← Edit.readText path
  settle path fragment (fragment.remove content)

end HostFile

/-- The layout that a controller file sets for a view; nothing if there is no
such file. -/
def layoutFor? (controller view : Text) : Edit (Option Text) := do
  if ← Edit.ask (·.holds controller) then
    let content ← Edit.readText controller
    return LayoutDirective.layoutFor? view content
  else return none

end SiteScaffold.Patch

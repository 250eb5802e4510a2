/-
Empty actions of the home controller: a `def` line and an `end` line, inserted
before the last `end` of the file with an empty line after them.
-/
import SiteScaffold.Pattern.Class
import SiteScaffold.Patch.Refusal

namespace SiteScaffold.Patch.ControllerAction

open Pattern

/-- The start of a line that defines the action, up to the name. -/
def head (name : Text) : Pattern :=
  lineStart ++ spacing ++ "def" ++ oneOrMore isSpacing ++ literal name ++ spacing

/-- The line that defines the action. -/
def definition (name : Text) : Pattern := head name ++ optional "\r" ++ lineEnd

/-- The action from its `def` line through the first `end` line, with the
blank line that insertion leaves behind. -/
def block (name : Text) : Pattern :=
  head name ++ newline ++ few anything ++ lineStart ++ spacing ++ "end" ++ spacing
    ++ optional "\r" ++ lineBreakAndBlank

/-- Three newlines or more. -/
def blankRun : Pattern := "\n\n\n" ++ many (· = '\n')

/-- The content with every run of three newlines or more cut to two. -/
def collapseBlankRuns (content : Text) : Text := blankRun.rewrite (fun _ => "\n\n") content

/-- Lines before and from the last one that holds nothing but `end`. -/
def splitAtLastEnd : List Text → Option (List Text × List Text)
  | [] => none
  | line :: lines =>
    match splitAtLastEnd lines with
    | some (front, back) => some (line :: front, back)
    | none => if Text.trim line = "end" then some ([], line :: lines) else none

/-- An empty action. -/
def emptyBlock (name : Text) : Text := "  def " ++ name ++ "\n  end\n\n"

/-- The content with an empty action before its last `end` line, unless the
action is defined. -/
def insert (name content : Text) : Except Refusal (Option Text) :=
  if (definition name).occursIn content then .ok none
  else
    match splitAtLastEnd (Text.wholeLines content) with
    | some (front, back) => .ok (some (front.flatten ++ emptyBlock name ++ back.flatten))
    | none => .error (.noAnchor "a closing 'end' line")

/-- The content without the action. -/
def remove (name content : Text) : Option Text :=
  if (block name).occursIn content then
    some (collapseBlankRuns ((block name).delete content))
  else none

end SiteScaffold.Patch.ControllerAction

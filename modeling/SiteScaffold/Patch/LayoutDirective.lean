/-
Layout directives: lines of a controller that set a layout for single views.
One is inserted right after the line that opens the class, with an empty line
after it.
-/
import SiteScaffold.Pattern.Class
import SiteScaffold.Patch.Refusal

namespace SiteScaffold.Patch.LayoutDirective

open Pattern

/-- A declaration of the layout. -/
def declaration (layout : Text) : Pattern := "layout" ++ gap ++ quoted layout

/-- The line that opens the class. -/
def classLine (hostClass : Text) : Pattern :=
  "class" ++ gap ++ literal hostClass ++ slack ++ "<" ++ slack ++ "ApplicationController"
    ++ spacing ++ newline

/-- A line that declares the layout, with the blank line that insertion leaves
behind. -/
def directiveLine (layout : Text) : Pattern :=
  lineStart ++ spacing ++ declaration layout ++ many inLine ++ lineBreakAndBlank

/-- The directive that sets a layout for one view, with an empty line. -/
def directive (layout view : Text) : Text :=
  "  layout \"" ++ layout ++ "\", only: :" ++ view ++ "\n\n"

/-- The content with a directive right after the line that opens the class;
refused if the layout is declared. -/
def insert (layout view hostClass content : Text) : Except Refusal (Option Text) :=
  if (declaration layout).occursIn content then .error (.declared layout)
  else
    match (classLine hostClass).first? content with
    | some (front, hit, back) => .ok (some (front ++ hit.text ++ directive layout view ++ back))
    | none =>
      .error (.noAnchor ("'class " ++ hostClass ++ " < ApplicationController'"))

/-- The content without the lines that declare the layout. -/
def remove (layout content : Text) : Option Text :=
  if (directiveLine layout).occursIn content then
    some ((directiveLine layout).delete content)
  else none

-- ====================================================== the inverse

/-- An `only:` scope that names the view: alone, in a list of symbols, or in a
list of words. -/
def scopeOf (view : Text) : Pattern :=
  (":" ++ literal view ++ boundary)
    ||| ("[" ++ many (fun c => c ≠ ']' && c ≠ '\n') ++ ":" ++ literal view ++ boundary)
    ||| ("%i[" ++ many (fun c => c ≠ ']' && c ≠ '\n') ++ boundary ++ literal view ++ boundary)

/-- A directive whose scope names the view; the layout is captured. -/
def directiveFor (view : Text) : Pattern :=
  "layout" ++ gap ++ quote ++ capture 1 (oneOrMore (!isQuote ·)) ++ quote ++ many inLine
    ++ "only:" ++ slack ++ scopeOf view

/-- The layout of the first directive that names the view. -/
def layoutFor? (view content : Text) : Option Text :=
  ((directiveFor view).first? content).map fun (_, hit, _) => hit.group 1

end SiteScaffold.Patch.LayoutDirective

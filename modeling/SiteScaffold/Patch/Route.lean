/-
Route declarations in a routes file: one line for each page, and at most one
root line. A new declaration goes right after the line that opens the block of
routes.
-/
import SiteScaffold.Pattern.Class
import SiteScaffold.Patch.Refusal

namespace SiteScaffold.Patch.Route

open Pattern

-- ==================================================== declarations

/-- The declaration of a page's route. -/
def pageDeclaration (page action : Text) : Text :=
  "get \"/" ++ page ++ "\", to: \"home#" ++ action ++ "\""

/-- The declaration of the root route. -/
def rootDeclaration (action : Text) : Text := "root \"home#" ++ action ++ "\""

/-- A declaration as a line of the block. -/
def line (declaration : Text) : Text := "  " ++ declaration ++ "\n"

-- ======================================================== patterns

/-- The line that opens the block of routes. -/
def opener : Pattern :=
  "Rails.application.routes.draw" ++ gap ++ "do" ++ spacing ++ newline

/-- A root line: a line whose first word is `root`. -/
def rootLine : Pattern :=
  lineStart ++ spacing ++ "root" ++ boundary ++ many inLine ++ lineBreak

/-- A line that declares a page's route, whatever action it leads to. -/
def pageLine (page : Text) : Pattern :=
  lineStart ++ spacing ++ "get" ++ gap ++ quote ++ "/" ++ literal page ++ quote
    ++ many inLine ++ lineBreak

-- ======================================================= insertion

/-- The content with a declaration right after the opener. -/
def insertLine (declaration content : Text) : Except Refusal Text :=
  match opener.first? content with
  | some (front, hit, back) => .ok (front ++ hit.text ++ line declaration ++ back)
  | none => .error (.noAnchor "'Rails.application.routes.draw do'")

/-- The content with a page's declaration, unless a line holds it already. -/
def insertPage (page action content : Text) : Except Refusal (Option Text) :=
  let declaration := pageDeclaration page action
  if (Text.lines content).any (Text.trim · = declaration) then .ok none
  else (insertLine declaration content).map some

/-- Pieces of a text with one line in place of the first match and nothing in
place of the others. -/
def replaceFirstHit (replacement : Text) (pieces : List Piece) : Text :=
  let (front, rest) := pieces.span (·.hit?.isNone)
  let back := (rest.drop 1).flatMap (Piece.write fun _ => [])
  front.flatMap Piece.text ++ (if rest.isEmpty then [] else replacement) ++ back

/-- The content with the root declaration as its only root line. It takes the
place of the first root line there is. -/
def insertRoot (action content : Text) : Except Refusal (Option Text) :=
  let declaration := rootDeclaration action
  match rootLine.hits content with
  | [] => (insertLine declaration content).map some
  | [hit] =>
    if Text.trim hit.text = declaration then .ok none
    else .ok (some (replaceFirstHit (line declaration) (rootLine.pieces content)))
  | _ => .ok (some (replaceFirstHit (line declaration) (rootLine.pieces content)))

-- ========================================================= removal

/-- The content without the lines that declare a page's route. -/
def removePage (page content : Text) : Option Text :=
  if (pageLine page).occursIn content then some ((pageLine page).delete content) else none

/-- Pieces of a text without the first match that passes a test, if one
does. -/
def dropHit (test : Hit → Bool) (pieces : List Piece) : Option Text :=
  match pieces.span fun piece => !piece.hit?.any test with
  | (_, []) => none
  | (front, _ :: back) => some (front.flatMap Piece.text ++ back.flatMap Piece.text)

/-- The content without the first root line that holds exactly the root
declaration. -/
def removeRoot (action content : Text) : Option Text :=
  dropHit (Text.trim ·.text = rootDeclaration action) (rootLine.pieces content)

end SiteScaffold.Patch.Route

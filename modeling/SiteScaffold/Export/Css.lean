/-
References in exported stylesheets. A relative reference to an image or a font
is led to the folder that files of its kind are kept in; all others stay as
they are.
-/
import SiteScaffold.Pattern.Class
import SiteScaffold.Export.AssetKind

namespace SiteScaffold.Export.Css

open Pattern

/-- A `url(...)` token; what it refers to is captured. -/
def urlToken : Pattern :=
  "url(" ++ slack ++ optional quote ++ capture 2 (oneOrMore fun c => !isQuote c && c ≠ ')')
    ++ optional quote ++ slack ++ ")"

/-- The start of a query or a fragment. -/
def startsSuffix (c : Char) : Bool := c = '?' || c = '#'

/-- Where a relative reference to an image or a font leads after the
export. -/
def relocated? (url : Text) : Option Text :=
  if url.head? = some '/' || ':' ∈ url then none
  else do
    let path := url.takeWhile (!startsSuffix ·)
    let suffix := url.dropWhile (!startsSuffix ·)
    let name := (path.reverse.takeWhile (· ≠ '/')).reverse
    if name = [] then none
    else
      let kind ← AssetKind.of? name
      if kind = .image || kind = .font then
        some ("/assets/" ++ kind.folderName ++ "/" ++ name ++ suffix)
      else none

/-- The stylesheet with its references led to where the files are kept. -/
def rewrite (sheet : Text) : Text :=
  urlToken.rewrite (fun hit =>
    match relocated? (Text.trim (hit.group 2)) with
    | some target => "url(\"" ++ target ++ "\")"
    | none => hit.text) sheet

end SiteScaffold.Export.Css

/-
References in exported pages. Assets were moved into folders by kind, so a
reference to one gains the name of its folder; links to an index page lead to
the folder instead, and tokens that only a running server can use are dropped.
-/
import SiteScaffold.Pattern.Class
import SiteScaffold.Text.Digit

namespace SiteScaffold.Export.Html

open Pattern

-- ====================================================== references

/-- A character of a file name in a reference. -/
def inName (c : Char) : Bool := c ≠ '/' && !Text.isBlank c && !isQuote c

/-- A character of a path in a reference. -/
def inPath (c : Char) : Bool := !Text.isBlank c && !isQuote c

def imageExtension : Pattern :=
  "jpg" ||| "jpeg" ||| "png" ||| "gif" ||| "svg" ||| "webp" ||| "ico"

def fontExtension : Pattern := ("woff" ++ optional "2") ||| "ttf" ||| "eot" ||| "otf"

/-- A file name with one of some extensions, captured, at the end of a
word. -/
def fileWith (extension : Pattern) : Pattern :=
  capture 1 (oneOrMore inName ++ "." ++ extension) ++ boundary

/-- A script module, in nested folders or not. -/
def moduleReference : Pattern :=
  "assets/controllers/" ++ optional (oneOrMore inPath ++ "/") ++ fileWith "js"

/-- An asset right below the folder of assets. -/
def assetReference (extension : Pattern) : Pattern := "assets/" ++ fileWith extension

/-- An image at the root of the local server. -/
def imageOnServer (port : Nat) : Pattern :=
  "http://localhost:" ++ literal (Text.ofNat port) ++ "/" ++ fileWith imageExtension

/-- Every reference that matches, led to a folder. -/
def relocate (reference : Pattern) (folder : Text) (page : Text) : Text :=
  reference.rewrite (fun hit => folder ++ hit.group 1) page

/-- The page with every reference to a moved asset led to its folder. The
modules come first, for the rule for scripts would match a part of them. -/
def rewrite (port : Nat) (page : Text) : Text :=
  let page := relocate moduleReference "assets/js/" page
  let page := relocate (assetReference "js") "assets/js/" page
  let page := relocate (assetReference "css") "assets/css/" page
  let page := relocate (assetReference imageExtension) "assets/img/" page
  let page := relocate (assetReference fontExtension) "assets/fonts/" page
  relocate (imageOnServer port) "assets/img/" page

-- ========================================================= cleanup

/-- A link to the index page of a folder. -/
def nestedIndexLink : Pattern := "href=\"" ++ many (· ≠ '"') ++ "/index.html\""

/-- A link to the index page beside the page. -/
def bareIndexLink : Pattern := "href=\"index.html\""

/-- A meta tag with a token against forged requests. -/
def tokenTag : Pattern :=
  "<meta name=\"csrf-" ++ ("param" ||| "token") ++ "\"" ++ many (· ≠ '>') ++ ">"

def homeLink : Text := "href=\"/\""

/-- The page with links to index pages led to the root, and without the
tokens. -/
def clean (page : Text) : Text :=
  let page := nestedIndexLink.rewrite (fun _ => homeLink) page
  let page := bareIndexLink.rewrite (fun _ => homeLink) page
  tokenTag.delete page

end SiteScaffold.Export.Html

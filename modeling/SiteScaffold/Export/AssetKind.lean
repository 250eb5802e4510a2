/-
Kinds of assets. The extension of a file's name alone decides its kind, and the
kind decides in which folder of the export the file is kept.
-/
import SiteScaffold.Path

namespace SiteScaffold.Export

/-- A kind of asset. -/
inductive AssetKind where
  | image
  | script
  | stylesheet
  | font
  deriving Repr, DecidableEq

namespace AssetKind

/-- All kinds, in the order in which their files are moved. -/
def all : List AssetKind := [image, script, stylesheet, font]

/-- The folder of a kind, below the folder of assets. -/
def folderName : AssetKind → Text
  | image => "img"
  | script => "js"
  | stylesheet => "css"
  | font => "fonts"

/-- The extensions of a kind, in lower case. -/
def extensions : AssetKind → List Text
  | image => ["jpg", "jpeg", "png", "gif", "svg", "webp", "ico"]
  | script => ["js"]
  | stylesheet => ["css"]
  | font => ["woff", "woff2", "ttf", "eot", "otf"]

/-- The kind of the file at a path, if it is an asset. -/
def of? (path : Text) : Option AssetKind := do
  let extension ← Path.extension? path
  all.find? (extension.map Char.toLower ∈ extensions ·)

/-- The folder of assets in an export. -/
def assetsFolder (site : Text) : Text := Path.join site "assets"

/-- Where an export keeps the files of a kind. -/
def destination (kind : AssetKind) (site : Text) : Text :=
  Path.join (assetsFolder site) kind.folderName

end AssetKind

end SiteScaffold.Export

/-
The stages of an export after the site was mirrored: assets are moved into
folders by kind, references in pages and stylesheets are led after them, and
what only a running server can use is dropped.
-/
import SiteScaffold.Export.Reorganize
import SiteScaffold.Export.Html
import SiteScaffold.Export.Css

namespace SiteScaffold.Export

/-- Rewrites the file met on a walk, if it is a text file to look into that
changes; tells whether it did. -/
def rewriteFile (suffix : Text) (rewrite : Text → Text) (visit : Disk.Visit) : Edit Bool := do
  if !visit.entry.isFile || !Text.endsWith visit.path suffix then return false
  let content ← Edit.readText visit.path
  if rewrite content = content then return false
  Edit.writeText visit.path (rewrite content)
  return true

/-- Rewrites the files below a folder whose paths end in a suffix; answers how
many changed. -/
def rewriteFiles (folder suffix : Text) (rewrite : Text → Text) : Edit Nat := do
  if !(← Edit.ask (·.isFolder folder)) then return 0
  let visits ← Edit.walk folder
  let changed ← visits.mapM (rewriteFile suffix rewrite)
  return changed.count true

/-- Leads the references in all pages to the moved assets. -/
def rewritePages (site : Text) (port : Nat) : Edit Nat :=
  rewriteFiles site ".html" (Html.rewrite port)

/-- Leads the references in the moved stylesheets to the moved assets. -/
def rewriteSheets (site : Text) : Edit Nat :=
  rewriteFiles (AssetKind.stylesheet.destination site) ".css" Css.rewrite

/-- Drops from all pages what only a running server can use. -/
def cleanPages (site : Text) : Edit Nat := rewriteFiles site ".html" Html.clean

/-- What finishing an export came to. -/
structure ExportReport where
  moves : Moves
  pagesRewritten : Nat
  sheetsRewritten : Nat
  pagesCleaned : Nat
  deriving Repr, DecidableEq

/-- Finishes a mirrored site. -/
def finish (site : Text) (port : Nat) : Edit ExportReport := do
  prepareFolders site
  let moves ← reorganize site
  let pagesRewritten ← rewritePages site port
  let sheetsRewritten ← rewriteSheets site
  let pagesCleaned ← cleanPages site
  return ⟨moves, pagesRewritten, sheetsRewritten, pagesCleaned⟩

end SiteScaffold.Export

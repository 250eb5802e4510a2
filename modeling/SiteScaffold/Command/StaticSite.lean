/-
Building the static site: the running site is mirrored, put in order and, if
asked for, packed.
-/
import SiteScaffold.Command.Basic
import SiteScaffold.Export.Exporter
import SiteScaffold.Export.Mirror
import SiteScaffold.Export.Server
import SiteScaffold.Export.Archive
import SiteScaffold.Settings

namespace SiteScaffold.Command.StaticSite

open Export

/-- The crawler, which has to be there. -/
def requireCrawler (program : Text) (assumeYes : Bool) : Work Unit := do
  let tool := Tool.crawler program
  if !(← tool.isInstalled (← read).launcher (← read).here) then
    offerDocs assumeYes tool
    Work.fail (.precondition ("'" ++ tool.program ++ "' is required to mirror the site."))

/-- Mirrors the site of a project and reports what came of it. -/
def mirrorReported (project : Project) (settings : Settings) (port : Nat) : Work Unit := do
  let launcher := (← read).launcher
  Work.report .started ("Mirroring http://localhost:" ++ Text.ofNat port ++ "/ ...")
  let crawled := mirror launcher project.root settings.outputFolder settings.crawler port
  let report ← tryCatch (Work.edit crawled) fun failure => do
    Work.report .finished "Mirroring failed"
    throw failure
  Work.report .finished
    ("Mirrored into " ++ project.shown (project.path settings.outputFolder))
  if report.hoisted then
    Work.info ("Moved pages out of the localhost:" ++ Text.ofNat port ++ " directory")
  match report.outputTail with
  | some tail =>
    Work.warning (settings.crawler ++ " reported errors; some files may be missing:\n" ++ tail)
  | none => return

/-- Finishes a mirrored site and reports what came of it. -/
def finishReported (site : Text) (port : Nat) : Work Unit := do
  let report ← finish site port
  Work.success ("Organized assets: " ++ Text.ofNat report.moves.moved ++ " moved, "
    ++ Text.ofNat report.moves.skipped ++ " duplicates skipped")
  Work.success ("Fixed paths in " ++ Text.ofNat report.pagesRewritten ++ " HTML and "
    ++ Text.ofNat report.sheetsRewritten ++ " CSS files")
  Work.success ("Removed server-only markup from " ++ Text.ofNat report.pagesCleaned
    ++ " HTML files")

/-- Builds the static site of the project in a folder. -/
def build (folder : Text) (zip assumeYes : Bool) : Work Outcome := do
  let project ← Project.open folder
  let settings ← Settings.load project.root (← read).product.settingsFile
  Work.intro "Building static site"
  let server ← findServer (← read).launcher (← read).here project.root settings.pidFile
  Work.success ("Server is running (pid " ++ Text.ofNat server.pid ++ ", port "
    ++ Text.ofNat server.port ++ ")")
  requireCrawler settings.crawler assumeYes
  mirrorReported project settings server.port
  let site := project.path settings.outputFolder
  finishReported site server.port
  if zip then
    let (packed, stored) ← archive site
    Work.success ("Packaged " ++ Text.ofNat stored ++ " files into " ++ project.shown packed)
  let shown := project.shown site
  Work.outro ("Static site built in " ++ shown ++ "/\n   To test: cd " ++ shown
    ++ " && python3 -m http.server")
  return .completed

end SiteScaffold.Command.StaticSite

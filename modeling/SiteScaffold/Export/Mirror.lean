/-
Mirroring the running site. A crawler fetches the pages and what they need into
the export; it keeps them in a folder named after the server, which is then
dissolved. Whatever an earlier export left is removed first.
-/
import SiteScaffold.Export.OutputFolder
import SiteScaffold.Tool

namespace SiteScaffold.Export

-- ================================================== server address

/-- The host and port of the local server, as a folder is named after it. -/
def hostFolder (port : Nat) : Text := "localhost:" ++ Text.ofNat port

/-- The address of the local server. The port that addresses have by default is
not written. -/
def siteUrl (port : Nat) : Text :=
  if port = 80 then "http://localhost/" else "http://localhost:" ++ Text.ofNat port ++ "/"

/-- What the crawler is asked: to follow the site's own links, to rewrite them
for reading offline, and to fetch everything that pages need. -/
def crawlArgs (folder : Text) (port : Nat) : List Text :=
  [ "--mirror", "--convert-links", "--adjust-extension", "--page-requisites", "--no-parent",
    "--directory-prefix=" ++ folder, siteUrl port ]

-- ===================================================== single steps

/-- Removes an earlier export. -/
def clearFolder (site : Text) : Edit Unit := do
  if ← Edit.ask (·.holds site) then
    Edit.removeTree ("Failed to clear " ++ site) site

/-- Moves entries of a folder, in the given order, into the export. -/
def hoistEntries (site wrapper : Text) (names : List Text) : Edit Unit :=
  names.forM fun name => Edit.move (Path.join wrapper name) (Path.join site name)

/-- Dissolves the folder named after the server; tells whether there was
one. -/
def hoist (site : Text) (port : Nat) : Edit Bool := do
  let wrapper := Path.join site (hostFolder port)
  if !(← Edit.ask (·.isFolder wrapper)) then return false
  let entries ← Edit.list wrapper
  hoistEntries site wrapper (entries.map (·.1))
  Edit.removeTree ("Failed to remove " ++ wrapper) wrapper
  return true

/-- Whether a folder has something in it. -/
def hasContent (folder : Text) (disk : Disk) : Bool :=
  match disk.list folder with
  | .ok entries => !entries.isEmpty
  | .error _ => false

/-- The last lines of what a program wrote. -/
def lastLines (output : Bytes) : Text :=
  let lines := Text.lines (Utf8.decodeLenient output)
  Text.join "\n" (lines.drop (lines.length - 20))

-- ======================================================= the stage

/-- What mirroring came to: whether the crawler reported success, whether a
folder was dissolved, and the last lines of a crawler that reported none. -/
structure MirrorReport where
  cleanExit : Bool
  hoisted : Bool
  outputTail : Option Text
  deriving Repr, DecidableEq

/-- Mirrors the site behind a port. A crawler that reports an error may still
have fetched enough; it failed only if nothing is there. -/
def mirror (launcher : Launcher) (root folder crawler : Text) (port : Nat) :
    Edit MirrorReport := do
  match checkOutputFolder folder with
  | .error cause => Edit.fail cause
  | .ok () =>
    let site := Path.join root folder
    clearFolder site
    match ← Tool.launch launcher ⟨crawler, crawlArgs folder port, root⟩ with
    | .error fault =>
      Edit.fail (.toolFailed crawler ("could not be started: " ++ fault.message))
    | .ok ending =>
      let hoisted ← hoist site port
      if ending.success then return ⟨true, hoisted, none⟩
      else if ← Edit.ask (hasContent site) then
        return ⟨false, hoisted, some (lastLines ending.stderr)⟩
      else
        let code := match ending.code with
          | some code => Text.ofNat code
          | none => "-1"
        Edit.fail (.toolFailed crawler ("exit code " ++ code ++ ", nothing was mirrored from "
          ++ siteUrl port ++ "\n" ++ lastLines ending.stderr))

end SiteScaffold.Export

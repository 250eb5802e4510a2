/-
Where an export may go. Its folder is wiped before every export, so it has to
lie strictly below the project and outside the folders the project keeps its
own files in.
-/
import SiteScaffold.Path
import SiteScaffold.Failure

namespace SiteScaffold.Export

/-- The folders of a project that an export is never written into. -/
def projectFolders : List Text :=
  [ "app", "bin", "config", "db", "lib", "log", "public", "script", "storage", "test", "tmp",
    "vendor", "node_modules" ]

/-- Whether a part of a path is a plain name. -/
def isPlain : Path.Part → Bool
  | .name _ => true
  | _ => false

/-- Refuses a folder that an export may not go to. -/
def checkOutputFolder (folder : Text) : Except Cause Unit :=
  match Path.parts folder with
  | [] => .error (.precondition "build.output_dir must not be empty")
  | first :: rest =>
    if !(first :: rest).all isPlain then
      .error (.precondition
        ("build.output_dir must be a relative path without '.' or '..': " ++ folder))
    else
      match first with
      | .name top =>
        if top ∈ projectFolders then
          .error (.precondition
            ("build.output_dir would overwrite the project's " ++ top ++ " directory"))
        else .ok ()
      | _ => .ok ()

end SiteScaffold.Export

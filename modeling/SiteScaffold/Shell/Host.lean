/-
The part of a disk that belongs to the system: the folders it keeps its programs
in, and the programs themselves. A program of the system is known by its place,
so the files stand there empty.
-/
import SiteScaffold.Shell.Program

namespace SiteScaffold.Shell

/-- Where the tools of a project's host are kept. -/
def toolFolder : Text := "/tools"

/-- The program that tells whether a command is there. -/
def finder : Text := "#!/bin/sh\ncommand -v \"$1\"\n"

namespace Host

/-- The folders of the system. -/
def folders : List Key :=
  [["bin"], ["dev"], ["tmp"], ["tools"], ["usr"], ["usr", "bin"]]

/-- The names of the programs of the system. -/
def programs : List Text := Program.shells ++ ["env".toList] ++ Utility.all.map (·.1)

/-- An executable file. -/
def executable (content : Text) : Entry := .file true (.text content)

/-- A disk on which only the system is. -/
def disk : Disk :=
  let disk := folders.foldl (fun disk k => disk.insert k .folder) Disk.blank
  let disk := Program.systemFolders.foldl (fun disk folder =>
    programs.foldl (fun disk name => disk.insert (folder ++ [name]) (executable [])) disk) disk
  let disk := disk.insert World.nullPlace (.file false (.text []))
  disk.insert ["tools", "which"] (executable finder)

end Host

end SiteScaffold.Shell

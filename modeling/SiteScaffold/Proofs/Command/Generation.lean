/-
What a new project is like. The generator may leave any tree of folders and files (`generated`);
four stages then go over it, each on what the one before it left. What a lean project does without
is taken away, the skeleton is written, the shell is put around the layout, and the root route is
set. The places they change are different ones, so no stage undoes what another one did: a file of
the project is one of the skeleton, one of the two that are patched, or as the generator made it
(`furnish_ends`, `Furnished`).

The skeleton brings the controller and the folders that a page needs. So with a manifest, and with
a line in the file of routes that opens the block, any page goes in whose files are not there and
have paths that the system takes (`Furnished.add_page`).
-/
import SiteScaffold.Proofs.Command.Rerun
import SiteScaffold.Proofs.Patch.RootRoute
import SiteScaffold.Proofs.Project.Skeleton

namespace SiteScaffold.Command

open Disk (Change HoldsText IsPath IsStep Tree)
open Patch
open Path (IsPlain segments_ne_nil under)
open Project (File)

variable {setting : Setting} {disk disk' before : Disk} {project : Project} {base target : Text} {top k : Key}
  {bare : Bool} {raw t : Text}

namespace Generation

-- ==================================================================== the generator

/-- The disk after the project generator was asked for its version. -/
def probed (setting : Setting) (disk : Disk) : Disk :=
  (setting.launcher ⟨Tool.rails.program, ["--version"], setting.here⟩ disk).2

/-- The disk that the project generator leaves, which is asked for its version first. -/
def generated (setting : Setting) (folder name : Text) (bare : Bool) (disk : Disk) : Disk :=
  (setting.launcher ⟨Tool.rails.program, generatorArgs name bare, folder⟩ (probed setting disk)).2

theorem on_banner (setting : Setting) (disk : Disk) :
    ∃ banner, (Tool.rails.banner setting.launcher setting.here).on disk = (.ok banner, probed setting disk) := by
  have hlaunch : (Tool.launch setting.launcher ⟨Tool.rails.program, ["--version"], setting.here⟩).on disk
      = (.ok (setting.launcher ⟨Tool.rails.program, ["--version"], setting.here⟩ disk).1, probed setting disk) := rfl
  unfold Tool.banner
  rw [Edit.on_bind_ok hlaunch]
  cases (setting.launcher ⟨Tool.rails.program, ["--version"], setting.here⟩ disk).1 with
  | ok ending | error fault => exact ⟨_, rfl⟩

/-- An installation that is recent enough was asked for its version, and that is all. -/
theorem checkRails_ends (assumeYes : Bool) :
    (checkRails assumeYes).Ends setting disk fun answer disk' =>
      ∀ found, answer = .ok found → disk' = probed setting disk := by
  obtain ⟨banner, hbanner⟩ := on_banner setting disk
  refine .bind_read (.bind_read (.bind_edit (Edit.on_bind_ok hbanner) ?_))
  cases (Version.Installation.ofBanner Tool.rails.displayName banner).supported Version.leastSupported with
  | ok found => exact .pure fun _ _ => rfl
  | error cause =>
      have hfails : ∀ disk', (Work.fail cause : Work Version.Installation).Ends setting disk' fun answer after =>
          ∀ found, answer = .ok found → after = probed setting disk :=
        fun disk' => .fail fun found hfound => by cases hfound
      refine .bind_any (fun failure disk' found hfound => by cases hfound) fun installed disk' => ?_
      cases installed with
      | true => exact hfails disk'
      | false => exact .bind_any (fun failure disk' found hfound => by cases hfound) fun _ disk' => hfails disk'

/-- Whatever comes of a program that is shown, the disk is as the program left it. -/
theorem runShown_ends (tool : Tool) (args : List Text) (folder : Text) :
    (Work.runShown tool args folder).Ends setting disk fun _ disk' =>
      disk' = (setting.launcher ⟨tool.program, args, folder⟩ disk).2 := by
  refine .bind_print (.bind (.launch ?_))
  generalize setting.launcher ⟨tool.program, args, folder⟩ disk = run
  obtain ⟨outcome, left⟩ := run
  cases outcome with
  | error fault => exact .fail rfl
  | ok ending =>
      dsimp only
      obtain ⟨out, outFault⟩ := Work.relayed ending.stdout
      obtain ⟨err, errFault⟩ := Work.relayed ending.stderr
      have hcode : ∀ text, (if (!ending.success) = true then Work.fail (.toolFailed tool.displayName text)
          else Pure.pure () : Work Unit).Ends setting left fun _ after => after = left := by
        intro text
        split
        · exact .fail rfl
        · exact .pure rfl
      refine .bind_print ?_
      cases outFault with
      | none =>
          refine .bind_printError ?_
          cases errFault with
          | none => exact .bind_print (hcode _)
          | some fault => exact .bind_printError (.bind_print (hcode _))
      | some fault =>
          refine .bind_printError (.bind_printError ?_)
          cases errFault with
          | none => exact .bind_print (hcode _)
          | some fault => exact .bind_printError (.bind_print (hcode _))

-- =================================================================== what is patched

/-- A file of a tree is patched at its place. -/
theorem insert_tree {fragment : Fragment} {outcome : Patch.Outcome} (tree : Tree base top disk) (hk : k ≠ [])
    (hnames : ∀ n ∈ k, IsPlain n) (h : (HostFile.insert (under base k) fragment).on disk = (.ok outcome, disk')) :
    ∃ t patched, disk.HoldsText (under base k) (top ++ k) t ∧ fragment.insert t = .ok patched
      ∧ disk'.HoldsText (under base k) (top ++ k) (patched.getD t) ∧ Change (top ++ k) disk disk' ∧ Tree base top disk' := by
  rcases HostFile.insert_cases h with ⟨⟨failure, hfails⟩, -⟩ | ⟨j, t, patched, hholds, hinsert, -, hholds', hrefilled⟩
  · cases hfails
  · obtain ⟨hpath, rfl, x, hlookup⟩ := (tree.holdsText_iff hk hnames).1 hholds
    have hchange := hholds.change_of_refilled tree.closed hrefilled
    refine ⟨t, patched, hholds, hinsert, hholds', hchange, tree.change hchange fun i name e _ heq => ?_⟩
    obtain rfl := List.append_cancel_left heq
    obtain ⟨hstep, hslash, -⟩ := tree.plain i name _ hlookup
    exact ⟨hstep, hslash⟩

-- ================================================================ what is left of it

/-- What a project is to do without. -/
def removals (bare : Bool) : List Text := if bare then Blueprint.dispensable else []

def layoutName : Text := "app/views/layouts/application.html.erb"

/-- The places in a project that are written. -/
def written : List Key :=
  Path.segments layoutName :: Path.segments Project.routesName
    :: (Blueprint.placesOf Blueprint.files).map (·.1)

/-- Whether no stage changes what stands at a place of a project, or takes away what stands above
it. -/
def Untouched (bare : Bool) (k : Key) : Prop :=
  k ∉ written ∧ ∀ entry ∈ removals bare, ¬ Path.segments entry <+: k

/-- What becomes of a project that was generated: the skeleton is there, there is one root line,
the layout is the one that was generated or what the shell makes of it, what the project is to do
without is gone, and the other files are the ones that were generated. -/
structure Furnished (project : Project) (bare : Bool) (top : Key) (before disk : Disk) : Prop where
  tree : Tree project.root top disk
  skeleton : ∀ file ∈ Blueprint.files, disk.readText (project.path file.1) = .ok file.2
  root : ∃ t hit, disk.readText project.routes = .ok t ∧ Route.rootLine.hits t = [hit]
    ∧ Text.trim hit.text = "root \"home#index\""
  layout : ∃ t patched, before.readText project.applicationLayout = .ok t ∧ Fragment.shell.insert t = .ok patched
    ∧ disk.readText project.applicationLayout = .ok (patched.getD t)
  gone : ∀ entry ∈ removals bare, disk.holds (project.path entry) = false
    ∧ (IsPath (project.path entry) → disk.lookup (top ++ Path.segments entry) = none)
  others : ∀ k x c, Untouched bare k →
    (disk.lookup (top ++ k) = some (.file x c) ↔ before.lookup (top ++ k) = some (.file x c))

/-- The places that are written are different ones. -/
theorem nodup_written : written.Nodup := by decide +kernel

/-- What a project does without is none of them, and nothing above them. -/
theorem removals_apart {entry : Text} (h : entry ∈ removals bare) (hk : k ∈ written) : ¬ Path.segments entry <+: k := by
  have hapart : ∀ entry ∈ Blueprint.dispensable, ∀ k ∈ written, ¬ Path.segments entry <+: k := by decide +kernel
  cases bare with
  | true => exact hapart entry h k hk
  | false => cases h

theorem isPlain_segments {path : Text} (h : ∀ n ∈ Path.segments path, IsStep n) :
    ∀ n ∈ Path.segments path, IsPlain n := fun n hn =>
  ⟨(h n hn).isName, Text.notMem_of_mem_split hn⟩

theorem isPlain_of_mem_removals {entry : Text} (h : entry ∈ removals bare) : ∀ n ∈ Path.segments entry, IsPlain n := by
  have hnames : ∀ entry ∈ Blueprint.dispensable, ∀ n ∈ Path.segments entry, IsStep n := by decide +kernel
  cases bare with
  | true => exact isPlain_segments (hnames entry h)
  | false => cases h

theorem isPlain_layoutName : ∀ n ∈ Path.segments layoutName, IsPlain n := isPlain_segments (by decide +kernel)

theorem isPlain_routesName : ∀ n ∈ Path.segments Project.routesName, IsPlain n := isPlain_segments (by decide +kernel)

/-- The files of the skeleton are not patched, and no file is patched twice. -/
theorem layout_ne_routes : Path.segments layoutName ≠ Path.segments Project.routesName := by decide +kernel

theorem ne_of_mem_placesOf {file : Key × Text} (h : file ∈ Blueprint.placesOf Blueprint.files) :
    file.1 ≠ Path.segments layoutName ∧ file.1 ≠ Path.segments Project.routesName := by
  have hmem : file.1 ∈ (Blueprint.placesOf Blueprint.files).map (·.1) := List.mem_map_of_mem h
  obtain ⟨hlayout, hrest⟩ := List.nodup_cons.1 nodup_written
  obtain ⟨hroutes, -⟩ := List.nodup_cons.1 hrest
  exact ⟨fun heq => hlayout (List.mem_cons_of_mem _ (heq ▸ hmem)), fun heq => hroutes (heq ▸ hmem)⟩

/-- What patching the two files comes to: each has its text with the fragment, and the rest of the
project is as it was. -/
structure Patched (project : Project) (top : Key) (layout routes : Text) (before disk : Disk) : Prop where
  tree : Tree project.root top disk
  layout : ∃ patched, before.HoldsText project.applicationLayout (top ++ Path.segments layoutName) layout
    ∧ Fragment.shell.insert layout = .ok patched
    ∧ disk.HoldsText project.applicationLayout (top ++ Path.segments layoutName) (patched.getD layout)
  routes : ∃ patched, (Fragment.rootRoute "index").insert routes = .ok patched
    ∧ disk.HoldsText project.routes (top ++ Path.segments Project.routesName) (patched.getD routes)
  same : ∀ j, j ≠ top ++ Path.segments layoutName → j ≠ top ++ Path.segments Project.routesName →
    disk.lookup j = before.lookup j
  others : ∀ {path t} {j : Key}, j ≠ top ++ Path.segments layoutName → j ≠ top ++ Path.segments Project.routesName →
    before.HoldsText path j t → disk.HoldsText path j t

theorem patched_of_inserts {shelled : Disk} {outcome outcome' : Patch.Outcome} (tree : Tree project.root top before)
    (hshell : (HostFile.insert project.applicationLayout .shell).on before = (.ok outcome, shelled))
    (hroot : (HostFile.insert project.routes (.rootRoute "index")).on shelled = (.ok outcome', disk)) :
    ∃ layout routes, Patched project top layout routes before disk := by
  have hlayout : project.applicationLayout = under project.root (Path.segments layoutName) :=
    (Path.under_segments project.root layoutName).symm
  have hroutes : project.routes = under project.root (Path.segments Project.routesName) :=
    (Path.under_segments project.root Project.routesName).symm
  rw [hlayout] at hshell
  rw [hroutes] at hroot
  obtain ⟨t, patched, hholds, hinsert, hholds', hchange, tree₁⟩ :=
    insert_tree tree (segments_ne_nil _) isPlain_layoutName hshell
  obtain ⟨s, patched', -, hinsert', hrooted, hchange', tree₂⟩ :=
    insert_tree tree₁ (segments_ne_nil _) isPlain_routesName hroot
  rw [← hlayout] at hholds hholds'
  rw [← hroutes] at hrooted
  have hapart : top ++ Path.segments layoutName ≠ top ++ Path.segments Project.routesName := fun heq =>
    layout_ne_routes (List.append_cancel_left heq)
  refine ⟨t, s, tree₂, ⟨patched, hholds, hinsert, hholds'.congr hchange' hapart⟩, ⟨patched', hinsert', hrooted⟩,
    fun j hj hj' => ?_, fun hj hj' hother => (hother.congr hchange hj).congr hchange' hj'⟩
  rw [hchange'.same j hj', hchange.same j hj]

/-- The stages, each on what the one before it left. -/
structure Stages (project : Project) (bare : Bool) (top : Key) (layout routes : Text)
    (before thinned overlaid disk : Disk) : Prop where
  tree : Tree project.root top before
  trimmed : Blueprint.Thinned project.root top (removals bare) before thinned
  applied : Blueprint.Overlaid project.root top (Blueprint.placesOf Blueprint.files) thinned overlaid
  patched : Patched project top layout routes overlaid disk

namespace Stages

variable {thinned overlaid : Disk} {layout routes entry : Text} {file : Text × Text} {x : Bool}
  {c : Content} (stages : Stages project bare top layout routes before thinned overlaid disk)

theorem ne_of_notMem (hk : k ∉ (Blueprint.placesOf Blueprint.files).map (·.1)) :
    ∀ file ∈ Blueprint.placesOf Blueprint.files, top ++ k ≠ top ++ file.1 := by
  intro file hfile heq
  rw [List.append_cancel_left heq] at hk
  exact hk (List.mem_map_of_mem hfile)

include stages

/-- No file comes but those of the skeleton. -/
theorem of_overlaid (hk : k ∉ (Blueprint.placesOf Blueprint.files).map (·.1))
    (hfile : overlaid.lookup (top ++ k) = some (.file x c)) : thinned.lookup (top ++ k) = some (.file x c) := by
  rcases stages.applied.new _ _ (ne_of_notMem hk) hfile with hthere | ⟨hfolder, -⟩
  · exact hthere
  · cases hfolder

/-- Where nothing is written the last stage changes nothing. -/
theorem same (hk : k ∉ written) : disk.lookup (top ++ k) = overlaid.lookup (top ++ k)
    ∧ k ∉ (Blueprint.placesOf Blueprint.files).map (·.1) := by
  simp only [written, List.mem_cons, not_or] at hk
  obtain ⟨hlayout, hroutes, hfiles⟩ := hk
  exact ⟨stages.patched.same _ (fun heq => hlayout (List.append_cancel_left heq))
    (fun heq => hroutes (List.append_cancel_left heq)), hfiles⟩

theorem skeleton (hfile : file ∈ Blueprint.files) : disk.readText (project.path file.1) = .ok file.2 := by
  have hmem : (Path.segments file.1, file.2) ∈ Blueprint.placesOf Blueprint.files := List.mem_map_of_mem hfile
  obtain ⟨hlayout, hroutes⟩ := ne_of_mem_placesOf hmem
  have hplaced := stages.patched.others (fun heq => hlayout (List.append_cancel_left heq))
    (fun heq => hroutes (List.append_cancel_left heq)) (stages.applied.placed _ hmem)
  rw [Path.under_segments] at hplaced
  exact Disk.readText_eq_ok_iff.2 ⟨_, hplaced⟩

theorem root : ∃ t hit, disk.readText project.routes = .ok t ∧ Route.rootLine.hits t = [hit]
    ∧ Text.trim hit.text = "root \"home#index\"" := by
  obtain ⟨patched, hinsert, hholds⟩ := stages.patched.routes
  obtain ⟨hit, hhits, htrim⟩ := Route.hits_of_insertRoot (by decide) hinsert
  exact ⟨_, hit, Disk.readText_eq_ok_iff.2 ⟨_, hholds⟩, hhits, htrim⟩

/-- The layout that is patched is the one that was generated. -/
theorem generated_layout : before.readText project.applicationLayout = .ok layout := by
  obtain ⟨patched, hholds, -, -⟩ := stages.patched.layout
  have hlayout : project.applicationLayout = under project.root (Path.segments layoutName) :=
    (Path.under_segments project.root layoutName).symm
  refine Disk.readText_eq_ok_iff.2 ⟨top ++ Path.segments layoutName, ?_⟩
  rw [hlayout] at hholds ⊢
  obtain ⟨hpath, -, x, hfile⟩ :=
    (stages.applied.tree.holdsText_iff (segments_ne_nil _) isPlain_layoutName).1 hholds
  have hnew : Path.segments layoutName ∉ (Blueprint.placesOf Blueprint.files).map (·.1) := by
    intro hmem
    obtain ⟨file, hfile, heq⟩ := List.mem_map.1 hmem
    exact (ne_of_mem_placesOf hfile).1 heq
  have hfirst := stages.trimmed.fewer _ _ (stages.of_overlaid hnew hfile)
  exact (stages.tree.holdsText_iff (segments_ne_nil _) isPlain_layoutName).2 ⟨hpath, rfl, x, hfirst⟩

/-- What was taken away does not come back. -/
theorem lookup_removed (hentry : entry ∈ removals bare) (hpath : IsPath (project.path entry)) :
    disk.lookup (top ++ Path.segments entry) = none := by
  obtain ⟨hlookup, hnew⟩ := stages.same fun hmem => removals_apart hentry hmem (List.prefix_refl _)
  refine Option.eq_none_iff_forall_ne_some.2 fun e he => ?_
  rw [hlookup] at he
  rcases stages.applied.new _ _ (ne_of_notMem hnew) he with hthere | ⟨-, file, hfile, hpre⟩
  · rw [stages.trimmed.gone entry hentry hpath] at hthere
    cases hthere
  · rw [List.prefix_append_right_inj] at hpre
    exact removals_apart hentry
      (List.mem_cons_of_mem _ (List.mem_cons_of_mem _ (List.mem_map_of_mem hfile))) hpre

theorem holds_removed (hentry : entry ∈ removals bare) : disk.holds (project.path entry) = false := by
  refine Bool.eq_false_iff.2 fun hholds => ?_
  have hpath : project.path entry = under project.root (Path.segments entry) :=
    (Path.under_segments project.root entry).symm
  have hgone := stages.lookup_removed hentry
  rw [hpath] at hholds hgone
  obtain ⟨hispath, e, he⟩ :=
    (stages.patched.tree.holds_iff (segments_ne_nil _) (isPlain_of_mem_removals hentry)).1 hholds
  rw [hgone hispath] at he
  cases he

theorem others (huntouched : Untouched bare k) :
    disk.lookup (top ++ k) = some (.file x c) ↔ before.lookup (top ++ k) = some (.file x c) := by
  obtain ⟨hlookup, hnew⟩ := stages.same huntouched.1
  rw [hlookup, ← stages.trimmed.kept (top ++ k) fun entry hentry hpre =>
    huntouched.2 entry hentry ((List.prefix_append_right_inj top).1 hpre)]
  exact ⟨stages.of_overlaid hnew, stages.applied.kept _ _ (ne_of_notMem hnew)⟩

theorem furnished : Furnished project bare top before disk where
  tree := stages.patched.tree
  skeleton := fun _ hfile => stages.skeleton hfile
  root := stages.root
  layout := by
    obtain ⟨patched, -, hinsert, hholds⟩ := stages.patched.layout
    exact ⟨layout, patched, stages.generated_layout, hinsert, Disk.readText_eq_ok_iff.2 ⟨_, hholds⟩⟩
  gone := fun _ hentry => ⟨stages.holds_removed hentry, stages.lookup_removed hentry⟩
  others := fun _ _ _ huntouched => stages.others huntouched

end Stages

-- ======================================================================== a whole run

/-- What every project gets, whether it is lean or not. -/
def dress (target : Text) : Work Unit := do
  let written ← Blueprint.apply target
  Work.success ("Created " ++ Text.ofNat written.length ++ " frontend files")
  reportPatch (← HostFile.insert (Project.applicationLayout ⟨target⟩) .shell)
    ("Updated " ++ layoutName)
    (layoutName ++ " already renders the shared shell")
  reportPatch (← HostFile.insert (Project.routes ⟨target⟩) (.rootRoute "index"))
    "Root route set to home#index"
    "Root route already points to home#index"

theorem furnish_eq (target : Text) (bare : Bool) : furnish target bare = if bare then do
      let removed ← Blueprint.trim target
      Work.success ("Removed " ++ Text.ofNat removed.length ++ " unneeded entries: "
        ++ Text.join ", " removed)
      dress target
    else dress target := by
  cases bare with
  | true | false => rfl

theorem dress_ends {thinned : Disk} (tree : Tree target top before)
    (hthinned : Blueprint.Thinned target top (removals bare) before thinned) :
    (dress target).Ends setting thinned fun answer disk =>
      answer = .ok () → Furnished ⟨target⟩ bare top before disk := by
  refine .bind_edit_cases (fun _ _ h => by cases h) fun written overlaid happly => ?_
  have hoverlaid := Blueprint.apply_overlays hthinned.tree happly
  refine .bind_report (.bind_edit_cases (fun _ _ h => by cases h) fun outcome shelled hshell => ?_)
  refine .bind_reportPatch (.bind_edit_cases (fun _ _ h => by cases h) fun outcome' disk hroot => ?_)
  have htree : Tree (Project.mk target).root top overlaid := hoverlaid.tree
  obtain ⟨layout, routes, hpatched⟩ := patched_of_inserts htree hshell hroot
  have hfurnished : Furnished ⟨target⟩ bare top before disk := (Stages.mk tree hthinned hoverlaid hpatched).furnished
  cases outcome' with
  | applied | unchanged => exact .report fun _ => hfurnished

/-- Whatever tree was generated, it is furnished if that goes through. -/
theorem furnish_ends (tree : Tree target top before) (bare : Bool) :
    (furnish target bare).Ends setting before fun answer disk =>
      answer = .ok () → Furnished ⟨target⟩ bare top before disk := by
  rw [furnish_eq]
  cases bare with
  | true =>
      refine .bind_edit_cases (fun _ _ h => by cases h) fun removed thinned htrim => .bind_report ?_
      exact dress_ends tree (Blueprint.trim_thins tree htrim)
  | false => exact dress_ends tree ⟨tree, fun _ h => absurd h List.not_mem_nil, fun _ _ => rfl, fun _ _ h => h⟩

/-- Whether a command that completes has furnished the tree that was there before. -/
def Furnishes (target : Text) (bare : Bool) (top : Key) (before : Disk) (answer : Except Failure Outcome) (disk : Disk) :
    Prop :=
  answer = .ok .completed → Furnished ⟨target⟩ bare top before disk

section

variable {folder name : Text} {assumeYes : Bool} {next : Work Outcome}

/-- What comes after the generator goes on from the tree that it left. -/
theorem generate_ends
    (h : next.Ends setting (generated setting folder name bare disk) (Furnishes target bare top before)) :
    (Work.runShown Tool.rails (generatorArgs name bare) folder >>= fun _ => next).Ends setting (probed setting disk)
      (Furnishes target bare top before) := by
  refine .bind ((runShown_ends Tool.rails (generatorArgs name bare) folder).imp fun answer disk₁ hleft => ?_)
  obtain rfl := hleft
  cases answer with
  | error failure => exact fun h => by cases h
  | ok _ => exact h

/-- The tree that the generator leaves is furnished. -/
theorem create_ends (tree : Tree (Path.join folder name) top (generated setting folder name bare disk)) :
    (create folder name bare assumeYes).Ends setting disk
      (Furnishes (Path.join folder name) bare top (generated setting folder name bare disk)) := by
  have hfurnish : ∀ {text outro : Text}, (furnish (Path.join folder name) bare >>= fun _ => Work.print text >>= fun _ =>
        Work.outro outro >>= fun _ => Pure.pure Outcome.completed).Ends setting
      (generated setting folder name bare disk)
      (Furnishes (Path.join folder name) bare top (generated setting folder name bare disk)) := by
    intro text outro
    refine .bind ((furnish_ends tree bare).imp fun answer disk₁ hfurnished => ?_)
    cases answer with
    | error failure => exact fun h => by cases h
    | ok _ => exact .bind_print (.bind_report (.pure fun _ => hfurnished rfl))
  refine .bind_read (.bind_report (.bind_edit (Edit.on_ask _) ?_))
  split
  · exact .bind (.fail fun h => by cases h)
  refine .bind ((checkRails_ends assumeYes).imp fun answer disk₁ hprobed => ?_)
  cases answer with
  | error failure => exact fun h => by cases h
  | ok found =>
      obtain rfl := hprobed found rfl
      dsimp only
      cases found.version with
      | some present => exact .bind_report (generate_ends (.bind_report hfurnish))
      | none => exact generate_ends (.bind_report hfurnish)

end

-- =========================================================================== a page

/-- Whether the system takes the path of a file of a project. -/
structure Fits (project : Project) (file : File) : Prop where
  path : IsPath (file.path project)
  name : Text.byteSize file.name ≤ Disk.longestName

/-- Whether a project is one, with a line that opens the block of its routes. -/
structure TakesPages (project : Project) (disk : Disk) : Prop where
  manifest : disk.isFile (project.path Project.manifestName) = true
  opener : ∃ t, disk.readText project.routes = .ok t ∧ Route.opener.occursIn t = true

/-- Whether nothing stands where the view of a page goes, and the system takes the paths of the page. -/
structure Awaits (project : Project) (raw : Text) (disk : Disk) : Prop where
  absent : disk.holds (project.view (Name.normalize raw)) = false
  view : Fits project (.app (.view (Name.normalize raw)))
  stylesheet : Fits project (.app (.stylesheet (Name.normalize raw)))

/-- A file whose folder is there is placed. -/
theorem place_file {file : File} (tree : Tree project.root top disk) (hnamed : file.Named) (hfits : Fits project file)
    (hfolder : disk.lookup (top ++ file.folder) = some .folder) (hholds : disk.holds (file.path project) = false)
    (what content : Text) :
    ∃ disk', (Blueprint.placeNew (file.path project) what content).on disk = (.ok (), disk')
      ∧ Tree project.root top disk' ∧ (∀ j e, disk.lookup j = some e → disk'.lookup j = some e)
      ∧ disk'.isFile (file.path project) = true := by
  have hname := File.isPlain_name hnamed
  have hplace : file.place ≠ [] := by simp [File.place]
  have hpath := hfits.path
  rw [File.path_eq hnamed] at hpath hholds ⊢
  have hnone : disk.lookup (top ++ file.place) = none := by
    refine Option.eq_none_iff_forall_ne_some.2 fun e he => ?_
    rw [(tree.holds_iff hplace (File.isPlain hnamed)).2 ⟨hpath, e, he⟩] at hholds
    cases hholds
  have hstep : IsStep file.name := ⟨hname.idle, hname.up, hfits.name⟩
  have hplaced := Blueprint.placeNew_on_none tree file.folder_ne_nil (File.isPlain hnamed) hpath hstep hfolder hnone
    what content
  have hchange : Change (top ++ file.place) disk (disk.insert (top ++ file.place) (.file false (.text content))) := by
    rw [File.place, ← List.append_assoc] at hnone ⊢
    exact .of_insert tree.closed hfolder hnone
  have tree' : Tree project.root top (disk.insert (top ++ file.place) (.file false (.text content))) := by
    refine tree.change hchange fun k name e _ heq => ?_
    obtain ⟨-, hlast⟩ := List.append_inj' (List.append_cancel_left heq) rfl
    obtain rfl := List.singleton_inj.1 hlast
    exact ⟨hstep, hname.slash⟩
  refine ⟨_, hplaced, tree', Disk.lookup_insert_of_none hchange.root hnone _, Disk.isFile_iff.2 ?_⟩
  exact ⟨_, false, .text content, (tree'.locate_entry hplace (File.isPlain hnamed)).2
    ⟨hpath, rfl, by rw [Disk.lookup_insert hchange.root, if_pos rfl]⟩⟩

namespace Furnished

variable (furnished : Furnished project bare top before disk)

include furnished

/-- Above a file of the skeleton there is its folder. -/
theorem folder (hk : k ∈ Blueprint.files.map fun file => (Path.segments file.1).dropLast) :
    disk.lookup (top ++ k) = some .folder := by
  have hnames : ∀ file ∈ Blueprint.files, ∀ n ∈ Path.segments file.1, IsStep n := by decide +kernel
  obtain ⟨file, hfile, rfl⟩ := List.mem_map.1 hk
  obtain ⟨j, hholds⟩ := Disk.readText_eq_ok_iff.1 (furnished.skeleton file hfile)
  have hpath : project.path file.1 = under project.root (Path.segments file.1) :=
    (Path.under_segments project.root file.1).symm
  rw [hpath] at hholds
  obtain ⟨-, -, x, hlookup⟩ :=
    (furnished.tree.holdsText_iff (segments_ne_nil _) (isPlain_segments (hnames file hfile))).1 hholds
  rw [← List.dropLast_append_getLast (segments_ne_nil file.1), ← List.append_assoc] at hlookup
  exact furnished.tree.closed _ _ _ hlookup

/-- A page that a furnished project awaits goes in. -/
theorem add_page (htakes : TakesPages project disk) (hawaits : Awaits project raw disk) :
    (Page.add project.root raw).Ends setting disk fun answer disk' =>
      answer = .ok .completed ∧ (Staged.addPage raw).Done project disk' := by
  obtain ⟨hmanifest, t, hroutes, hopener⟩ := htakes
  obtain ⟨habsent, hview, hsheet⟩ := hawaits
  have hviewNamed : (File.app (.view (Name.normalize raw))).Named := ⟨raw, rfl⟩
  have hsheetNamed : (File.app (.stylesheet (Name.normalize raw))).Named := ⟨raw, rfl⟩
  have hviews : disk.lookup (top ++ ["app".toList, "views".toList, "home".toList]) = some .folder :=
    furnished.folder (by decide +kernel)
  have hsheets : disk.lookup (top ++ ["app".toList, "assets".toList, "stylesheets".toList]) = some .folder :=
    furnished.folder (by decide +kernel)
  obtain ⟨k, hcontroller⟩ := Disk.readText_eq_ok_iff.1
    (furnished.skeleton ("app/controllers/home_controller.rb", Template.homeController) (by simp [Blueprint.files]))
  obtain ⟨j, hholds⟩ := Disk.readText_eq_ok_iff.1 hroutes
  have hopen : (Project.open project.root).on disk = (.ok project, disk) := by
    obtain ⟨x, hlocate⟩ := hholds
    exact Project.on_open (Bool.and_eq_true_iff.2 ⟨Disk.isFile_iff.2 ⟨j, x, _, hlocate⟩, hmanifest⟩)
  have haction : (Fragment.action (Name.normalize raw)).Anchored Template.homeController :=
    .of_insert (ControllerAction.insert_of_end (by decide +kernel))
  have hroute : (Fragment.route (Name.normalize raw) (Name.normalize raw)).Anchored t :=
    .of_insert (Route.insertPage_of_opener (.inr hopener))
  obtain ⟨disk₁, hplace, tree₁, hkept, hthere⟩ := place_file furnished.tree hviewNamed hview hviews habsent "View"
    (Template.pageView (Name.normalize raw))
  cases hstyled : disk₁.holds (project.stylesheet (Name.normalize raw)) with
  | true => exact Page.add_placed hopen hcontroller haction hholds hroute hplace (.inl ⟨hstyled, rfl⟩) hkept hthere hstyled
  | false =>
      obtain ⟨disk₂, hplace', -, hkept', hthere'⟩ := place_file tree₁ hsheetNamed hsheet (hkept _ _ hsheets) hstyled
        "Stylesheet" (Template.pageStylesheet (Name.normalize raw))
      exact Page.add_placed hopen hcontroller haction hholds hroute hplace (.inr ⟨hstyled, hplace'⟩)
        (fun i e hi => hkept' i e (hkept i e hi)) ((Disk.Covers.of_kept hkept').isFile hthere)
        (Disk.holds_of_isFile hthere')

end Furnished

/-- A command that makes a project, when it completes, has furnished the tree that the generator
left. If that takes pages, a page that is awaited then goes in, with its action and its route. -/
theorem create_furnishes {folder name : Text} {assumeYes : Bool} {session : Session}
    (tree : Tree (Path.join folder name) top (generated setting folder name bare session.disk))
    (hcompleted : ((perform ⟨.new name bare, folder, assumeYes⟩).on setting session).1 = .ok .completed) :
    Furnished ⟨Path.join folder name⟩ bare top (generated setting folder name bare session.disk)
        ((perform ⟨.new name bare, folder, assumeYes⟩).on setting session).2.disk
      ∧ ∀ raw setting' later yes, later.disk = ((perform ⟨.new name bare, folder, assumeYes⟩).on setting session).2.disk →
        TakesPages ⟨Path.join folder name⟩ later.disk → Awaits ⟨Path.join folder name⟩ raw later.disk →
          ((perform ((Staged.addPage raw).request ⟨Path.join folder name⟩ yes)).on setting' later).1 = .ok .completed
            ∧ (Staged.addPage raw).Done ⟨Path.join folder name⟩
              ((perform ((Staged.addPage raw).request ⟨Path.join folder name⟩ yes)).on setting' later).2.disk := by
  have hfurnished : Furnished ⟨Path.join folder name⟩ bare top (generated setting folder name bare session.disk)
      ((perform ⟨.new name bare, folder, assumeYes⟩).on setting session).2.disk :=
    create_ends tree session rfl hcompleted
  refine ⟨hfurnished, fun raw setting' later yes hlater htakes hawaits => ?_⟩
  rw [← hlater] at hfurnished
  exact hfurnished.add_page htakes hawaits later rfl

-- ================================================================== a small project

/-- What a project generator may make: a manifest, a file of routes, a layout, two folders that a
lean project does without, and one that stands where the view of a page goes. -/
def smallTree : Disk :=
  (((((((((((Disk.blank.insert ["blog".toList] .folder)
    |>.insert ["blog".toList, "Gemfile".toList] (.file false (.text [])))
    |>.insert ["blog".toList, "app".toList] .folder)
    |>.insert ["blog".toList, "app".toList, "views".toList] .folder)
    |>.insert ["blog".toList, "app".toList, "views".toList, "home".toList] .folder)
    |>.insert ["blog".toList, "app".toList, "views".toList, "home".toList, "a.html.erb".toList] .folder)
    |>.insert ["blog".toList, "app".toList, "views".toList, "layouts".toList] .folder)
    |>.insert ["blog".toList, "app".toList, "views".toList, "layouts".toList, "application.html.erb".toList]
      (.file false (.text "<body>\n<%= yield %>\n</body>\n")))
    |>.insert ["blog".toList, "config".toList] .folder)
    |>.insert ["blog".toList, "config".toList, "routes.rb".toList] (.file false (.text Page.smallRoutes)))
    |>.insert ["blog".toList, "lib".toList] .folder)
    |>.insert ["blog".toList, "public".toList] .folder

/-- The small file of routes with its root. -/
def rootedRoutes : Text := "Rails.application.routes.draw do\n  root \"home#index\"\nend\n"

/-- A name that is too long for a file. -/
def longName : Text := List.replicate 300 'a'

/-- A setting in which the project generator makes the small tree. -/
def generating : Setting :=
  { Page.idleSetting with
    launcher := fun invocation disk =>
      if invocation.args = ["--version".toList] then (.ok ⟨some 0, Utf8.encode "Rails 7.1.2", []⟩, disk)
      else (.ok ⟨some 0, [], []⟩, smallTree) }

/-- A session in which a lean project is made of the small tree. -/
def made (name : Text) : Except Failure Outcome × Session :=
  (perform ⟨.new name true, "/", true⟩).on generating (Session.start .blank none)

theorem made_eq (name : Text) :
    made name = (perform ⟨.new name true, "/", true⟩).on generating (Session.start .blank none) := rfl

/-- A page is added to the project at `/blog`, and the operator is asked nothing. -/
def paged (raw : Text) : Except Failure Outcome × Session :=
  (perform ((Staged.addPage raw).request ⟨"/blog"⟩ true)).on Page.idleSetting (made "blog").2

theorem paged_eq (raw : Text) :
    paged raw = (perform ((Staged.addPage raw).request ⟨"/blog"⟩ true)).on Page.idleSetting (made "blog").2 := rfl

theorem generated_generating (folder name : Text) (disk : Disk) :
    generated generating folder name bare disk = smallTree := by
  have hother : generatorArgs name bare ≠ ["--version".toList] := by
    cases bare with
    | true | false => exact fun h => by cases congrArg List.length h
  unfold generated generating
  dsimp only
  rw [if_neg hother]

theorem tree_small : Tree (Path.join "/" "blog") ["blog".toList] smallTree := by
  have hclosed : smallTree.Closed := Disk.closed_of_forall_mem (by decide +kernel)
  have hplain : Disk.Plain smallTree [] := Disk.plain_of_forall_mem (by decide +kernel) []
  have hsub := (Disk.tree_of_plain_root hclosed hplain).sub (k := ["blog".toList]) (by simp) (by decide +kernel)
  have hunder : under ['/'] ["blog".toList] = Path.join "/" "blog" := by decide +kernel
  rw [hunder] at hsub
  exact hsub

theorem made_small : (made "blog").1 = .ok .completed
    ∧ (made "blog").2.disk.isFile (Project.path ⟨"/blog"⟩ Project.manifestName) = true
    ∧ (made "blog").2.disk.readText (Project.routes ⟨"/blog"⟩) = .ok rootedRoutes
    ∧ (made "blog").2.disk.holds (Project.view ⟨"/blog"⟩ (Name.normalize "about")) = false
    ∧ (made "blog").2.disk.holds (Project.view ⟨"/blog"⟩ (Name.normalize longName)) = false
    ∧ (paged longName).1 ≠ .ok .completed
    ∧ (made "blog").2.disk.isFile (Project.view ⟨"/blog"⟩ (Name.normalize "a")) = false
    ∧ (paged "a").1 ≠ .ok .completed := by
  decide +kernel

theorem takesPages_small : TakesPages ⟨"/blog"⟩ (made "blog").2.disk := by
  obtain ⟨-, hmanifest, hroutes, -⟩ := made_small
  exact ⟨hmanifest, rootedRoutes, hroutes, by decide +kernel⟩

/-- A lean project from the small tree, to which a page is added. -/
theorem create_furnishes_small :
    (made "blog").1 = .ok .completed
      ∧ Furnished ⟨"/blog"⟩ true ["blog".toList] smallTree (made "blog").2.disk
      ∧ (paged "about").1 = .ok .completed ∧ (Staged.addPage "about").Done ⟨"/blog"⟩ (paged "about").2.disk := by
  obtain ⟨hcompleted, -, -, habsent, -⟩ := made_small
  have hjoin : Path.join "/" "blog" = "/blog".toList := by decide +kernel
  have hawaits : Awaits ⟨"/blog"⟩ "about" (made "blog").2.disk :=
    ⟨habsent, ⟨⟨by decide +kernel, by decide +kernel, by decide +kernel⟩, by decide +kernel⟩,
      ⟨by decide +kernel, by decide +kernel, by decide +kernel⟩, by decide +kernel⟩
  have htree : Tree (Path.join "/" "blog") ["blog".toList] (generated generating "/" "blog" true
      (Session.start .blank none).disk) := by
    rw [generated_generating]
    exact tree_small
  rw [made_eq] at hcompleted
  have hall := create_furnishes htree hcompleted
  rw [generated_generating, hjoin, ← made_eq] at hall
  obtain ⟨hfurnished, hpage⟩ := hall
  have hadded := hpage "about" Page.idleSetting (made "blog").2 true rfl takesPages_small hawaits
  rw [← paged_eq] at hadded
  rw [← made_eq] at hcompleted
  exact ⟨hcompleted, hfurnished, hadded⟩

/-- A page whose view is not there need not go in: not if its name is too long for a file, and not if
a folder stands where its view goes. And where the path of the project leads through a folder that
it does without, another folder stays that it does without. -/
theorem create_leaves_short :
    (∀ entry ∈ smallTree.entries, (entry.2.isFile || entry.2.isFolder) = true)
      ∧ ((made "blog").1 = .ok .completed ∧ TakesPages ⟨"/blog"⟩ (made "blog").2.disk)
      ∧ ((made "blog").2.disk.holds (Project.view ⟨"/blog"⟩ (Name.normalize longName)) = false
        ∧ (paged longName).1 ≠ .ok .completed)
      ∧ ((made "blog").2.disk.isFile (Project.view ⟨"/blog"⟩ (Name.normalize "a")) = false
        ∧ (paged "a").1 ≠ .ok .completed)
      ∧ (made "blog/lib/..").1 = .ok .completed
      ∧ (made "blog/lib/..").2.disk.isFolder (Project.path ⟨"/blog/lib/.."⟩ "public") = true := by
  obtain ⟨hcompleted, -, -, -, hlong, hfails⟩ := made_small
  have hthrough : (made "blog/lib/..").1 = .ok .completed
      ∧ (made "blog/lib/..").2.disk.isFolder (Project.path ⟨"/blog/lib/.."⟩ "public") = true := by
    decide +kernel
  exact ⟨by decide +kernel, ⟨hcompleted, takesPages_small⟩, ⟨hlong, hfails.1⟩, hfails.2, hthrough⟩

end Generation

end SiteScaffold.Command

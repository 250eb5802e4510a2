/-
Mirroring wipes the export and nothing else. A folder that an export may go to lies, as it
is written, strictly below the project and apart from the project's own folders
(`OutsideProject`). What is removed before the crawler starts lies at that place or below it
(`clearFolder_off`), and the crawler is all that the rest of the run depends on beside the
disk it starts with (`mirror_eq`).

If the path of the export ends in a name, all that stood there is removed
(`clearFolder_on`), so the disk that the crawler starts with is the same whatever an earlier
export left (`mirror_wipes_export`). A path that ends in a dot is taken for the same folder
when it is checked, but the system does not remove a folder by it (`mirror_stops_at_dot`).
-/
import SiteScaffold.Export.Mirror
import SiteScaffold.Proofs.Disk.Spelled
import SiteScaffold.Proofs.Refusal

namespace SiteScaffold.Export

open Disk (Tree IsPath)
open Path (Descends IsPlain namesOf under)

variable {disk disk' : Disk} {cause : Cause} {folder root crawler : Text} {j k top : Key}
  {port : Nat} {launcher launcher' : Launcher}

-- ============================================================== the folder of an export

/-- The names that lead from the project to the folder of an export. -/
def exportNames (folder : Text) : Key := namesOf (Path.segments folder)

/-- Whether a folder lies, as it is written, strictly below the project, and none of the
project's own folders is it, lies in it or has it inside. -/
structure OutsideProject (root folder : Text) : Prop where
  below : exportNames folder ≠ []
    ∧ Path.parts (Path.join root folder) = Path.parts root ++ (exportNames folder).map .name
  apart : ∀ own ∈ projectFolders, ¬ Path.parts (Path.join root own) <+: Path.parts (Path.join root folder)
    ∧ ¬ Path.parts (Path.join root folder) <+: Path.parts (Path.join root own)

theorem checkOutputFolder_error (h : checkOutputFolder folder = .error cause) :
    ∃ text, cause = .precondition text := by
  unfold checkOutputFolder at h
  split at h
  · cases h
    exact ⟨_, rfl⟩
  · split at h
    · cases h
      exact ⟨_, rfl⟩
    · split at h
      · split at h
        · cases h
          exact ⟨_, rfl⟩
        · cases h
      · cases h

/-- A path with nothing but names for parts does not start at the root or here, and does not
go up. -/
theorem spelled_by_names (hall : ∀ part ∈ Path.parts folder, isPlain part = true) :
    Path.isAbsolute folder = false ∧ (Path.segments folder).head? ≠ some ['.']
      ∧ "..".toList ∉ Path.segments folder := by
  have hrelative : Path.isAbsolute folder = false := by
    rw [Bool.eq_false_iff]
    intro habsolute
    rw [Path.parts_def, if_pos habsolute] at hall
    cases hall .root (by simp)
  have hhere : (Path.segments folder).head? ≠ some ['.'] := by
    intro hhere
    rw [Path.parts_def, hrelative, if_neg Bool.false_ne_true, if_pos hhere] at hall
    cases hall .here (by simp)
  refine ⟨hrelative, hhere, fun hmem => ?_⟩
  have hname : "..".toList ∈ namesOf (Path.segments folder) := List.mem_filter.2 ⟨hmem, by decide⟩
  rw [Path.parts_def, hrelative, if_neg Bool.false_ne_true, if_neg hhere] at hall
  cases hall _ (List.mem_map_of_mem (f := Path.Part.ofSegment) hname)

/-- A folder that is not refused is spelled by names that go below, the first of which is
none of the project's own folders. -/
theorem descends_of_check (h : checkOutputFolder folder = .ok ()) :
    Descends folder ∧ (Path.segments folder).head? ≠ some ['.']
      ∧ ∀ first ∈ (exportNames folder).head?, first ∉ projectFolders := by
  unfold checkOutputFolder at h
  split at h
  next => cases h
  next first rest hparts =>
    split at h
    next => cases h
    next hplain =>
      have hall : ∀ part ∈ Path.parts folder, isPlain part = true := by
        rw [hparts]
        simpa using hplain
      obtain ⟨hrelative, hhere, hup⟩ := spelled_by_names hall
      have hnames : (exportNames folder).map .name = first :: rest :=
        (Path.parts_eq hrelative hhere hup).symm.trans hparts
      cases hcons : exportNames folder with
      | nil =>
          rw [hcons] at hnames
          cases hnames
      | cons top names =>
          rw [hcons] at hnames
          cases hnames
          have hown : (if top ∈ projectFolders then _ else _) = Except.ok () := h
          refine ⟨⟨hrelative, hup, fun hnil => ?_⟩, hhere, fun name hname hmem => ?_⟩
          · rw [exportNames, hnil] at hcons
            cases hcons
          · obtain rfl : top = name := Option.some.inj hname
            rw [if_pos hmem] at hown
            cases hown

theorem outsideProject (root : Text) (h : checkOutputFolder folder = .ok ()) :
    OutsideProject root folder := by
  obtain ⟨hdescends, hhere, hfirst⟩ := descends_of_check h
  have hbelow : Path.parts (Path.join root folder) = Path.parts root ++ (exportNames folder).map .name := by
    rw [Path.parts_join hdescends.relative hhere, Path.parts_eq hdescends.relative hhere hdescends.up]
    rfl
  refine ⟨⟨hdescends.names, hbelow⟩, fun own hown => ?_⟩
  have hplain : ∀ own ∈ projectFolders, IsPlain own := by
    have hall : ∀ own ∈ projectFolders, Path.isIdle own = false ∧ own ≠ "..".toList ∧ '/' ∉ own := by decide
    exact fun own hown => ⟨⟨(hall own hown).1, (hall own hown).2.1⟩, (hall own hown).2.2⟩
  have hparts : Path.parts (Path.join root own) = Path.parts root ++ [.name own] := by
    rw [← Path.under_singleton, Path.parts_under (by simp) (by simpa using hplain own hown)]
    rfl
  obtain ⟨first, names, hcons⟩ := List.exists_cons_of_ne_nil (l := exportNames folder) hdescends.names
  have hne : own ≠ first := by
    rintro rfl
    exact hfirst own (by rw [hcons]; rfl) hown
  rw [hbelow, hparts, hcons, List.prefix_append_right_inj, List.prefix_append_right_inj]
  constructor
  · simpa using hne
  · intro hpre
    rw [List.map_cons, List.cons_prefix_cons] at hpre
    exact hne (Path.Part.name.inj hpre.1).symm

-- ================================================================== what is removed

/-- Clearing takes away nothing but what stands at the place of the export or below it. -/
theorem clearFolder_off (tree : Tree root top disk) (hdescends : Descends folder)
    (hj : ¬ top ++ exportNames folder <+: j) :
    ((clearFolder (Path.join root folder)).on disk).2.lookup j = disk.lookup j := by
  unfold clearFolder
  rw [Edit.on_bind_ok (Edit.on_ask _)]
  split
  · have htree := tree.removeTree_off hdescends hj
    show ((Edit.removeTree _ _).on disk).2.lookup j = _
    rw [Edit.on_removeTree_disk]
    exact htree
  · rfl

/-- Whether nothing or a folder stands at a place. -/
def FolderOrNothing (k : Key) (disk : Disk) : Prop := disk.lookup k = none ∨ disk.lookup k = some .folder

/-- Clearing by a path that ends in a name takes all of it away. -/
theorem clearFolder_on (tree : Tree root top disk) (hdescends : Descends folder)
    (hpath : IsPath (Path.join root folder))
    (hlast : (Path.segments (Path.bare folder)).getLast? ≠ some ['.'])
    (hkind : FolderOrNothing (top ++ exportNames folder) disk) :
    (clearFolder (Path.join root folder)).on disk = (.ok (), disk.erase (top ++ exportNames folder)) := by
  unfold clearFolder
  rw [Edit.on_bind_ok (Edit.on_ask _)]
  rcases hkind with hnone | hfolder
  · have hholds : disk.holds (Path.join root folder) = false := by
      rw [Bool.eq_false_iff]
      intro htrue
      obtain ⟨k, e, hfind⟩ := Disk.holds_iff_find.1 htrue
      obtain ⟨rfl, hentry⟩ := tree.entry_spelled hdescends hfind
      rw [exportNames, hentry] at hnone
      cases hnone
    rw [hholds, tree.closed.erase_of_none hnone]
    rfl
  · have hholds : disk.holds (Path.join root folder) = true :=
      Disk.holds_iff_find.2 ⟨_, _, tree.find_spelled hdescends hpath hfolder⟩
    rw [hholds]
    exact Edit.on_removeTree_eq_ok.2 (tree.removeTree_spelled hdescends hpath hlast hfolder)

-- ======================================================================== the whole run

/-- After the check a run clears the folder, starts the crawler once, and goes on with how
that ended. -/
theorem mirror_eq (root crawler : Text) (port : Nat) (h : checkOutputFolder folder = .ok ()) :
    ∃ next : Except Fault Ending → Edit MirrorReport, ∀ launcher,
      mirror launcher root folder crawler port = (do
        clearFolder (Path.join root folder)
        let ending ← Tool.launch launcher ⟨crawler, crawlArgs folder port, root⟩
        next ending) := by
  unfold mirror
  rw [h]
  exact ⟨_, fun launcher => rfl⟩

/-- The disk that the crawler starts with. -/
def clearedFor (root folder : Text) (disk : Disk) : Disk := ((clearFolder (Path.join root folder)).on disk).2

/-- The crawler's part in a run is what it makes of the disk that it starts with. -/
theorem mirror_congr (h : checkOutputFolder folder = .ok ())
    (hsame : launcher' ⟨crawler, crawlArgs folder port, root⟩ (clearedFor root folder disk)
      = launcher ⟨crawler, crawlArgs folder port, root⟩ (clearedFor root folder disk)) :
    (mirror launcher' root folder crawler port).on disk = (mirror launcher root folder crawler port).on disk := by
  obtain ⟨next, hnext⟩ := mirror_eq root crawler port h
  rw [hnext, hnext, Edit.on_bind, Edit.on_bind]
  unfold clearedFor at hsame
  cases hclear : (clearFolder (Path.join root folder)).on disk with
  | mk outcome cleared =>
      rw [hclear] at hsame
      cases outcome with
      | error failure => rfl
      | ok _ =>
          have hlaunch : ∀ launcher : Launcher,
              (Tool.launch launcher ⟨crawler, crawlArgs folder port, root⟩).on cleared
                = (.ok (launcher ⟨crawler, crawlArgs folder port, root⟩ cleared).1,
                  (launcher ⟨crawler, crawlArgs folder port, root⟩ cleared).2) := fun _ => rfl
          dsimp only
          rw [Edit.on_bind_ok (hlaunch launcher'), Edit.on_bind_ok (hlaunch launcher), hsame]

/-- A run depends on the disk through the disk that the crawler starts with. -/
theorem mirror_of_cleared (h : checkOutputFolder folder = .ok ())
    (hsame : (clearFolder (Path.join root folder)).on disk' = (clearFolder (Path.join root folder)).on disk) :
    (mirror launcher root folder crawler port).on disk' = (mirror launcher root folder crawler port).on disk := by
  obtain ⟨next, hnext⟩ := mirror_eq root crawler port h
  rw [hnext, Edit.on_bind, Edit.on_bind, hsame]

/-- Mirroring wipes the export and nothing else. A folder that is refused is refused with a
precondition before anything happens. One that is not lies outside the project's own files,
what is removed before the crawler starts lies at its place or below it, and the crawler's
part in the run is what it makes of that disk. If the system takes the path and it does not
end in a dot, two disks that differ at most there, with a folder or nothing in the place,
come to the same end. -/
theorem mirror_wipes_export (tree : Tree root top disk) (launcher : Launcher) (folder crawler : Text)
    (port : Nat) :
    (∀ cause, checkOutputFolder folder = .error cause → (∃ text, cause = .precondition text)
      ∧ (mirror launcher root folder crawler port).on disk = (.error ⟨[], cause⟩, disk))
    ∧ (checkOutputFolder folder = .ok () → OutsideProject root folder
      ∧ (∀ j, ¬ top ++ exportNames folder <+: j → (clearedFor root folder disk).lookup j = disk.lookup j)
      ∧ (∀ launcher' : Launcher, launcher' ⟨crawler, crawlArgs folder port, root⟩ (clearedFor root folder disk)
          = launcher ⟨crawler, crawlArgs folder port, root⟩ (clearedFor root folder disk) →
        (mirror launcher' root folder crawler port).on disk = (mirror launcher root folder crawler port).on disk)
      ∧ ∀ disk', Tree root top disk' →
        disk'.erase (top ++ exportNames folder) = disk.erase (top ++ exportNames folder) →
        FolderOrNothing (top ++ exportNames folder) disk →
        FolderOrNothing (top ++ exportNames folder) disk' →
        IsPath (Path.join root folder) → (Path.segments (Path.bare folder)).getLast? ≠ some ['.'] →
        (mirror launcher root folder crawler port).on disk'
          = (mirror launcher root folder crawler port).on disk) := by
  constructor
  · intro cause hcheck
    refine ⟨checkOutputFolder_error hcheck, ?_⟩
    unfold mirror
    rw [hcheck]
    rfl
  · intro hcheck
    obtain ⟨hdescends, -, -⟩ := descends_of_check hcheck
    refine ⟨outsideProject root hcheck, fun j hj => clearFolder_off tree hdescends hj,
      fun launcher' hsame => mirror_congr hcheck hsame, ?_⟩
    intro disk' tree' herase hkind hkind' hpath hlast
    refine mirror_of_cleared hcheck ?_
    rw [clearFolder_on tree' hdescends hpath hlast hkind', clearFolder_on tree hdescends hpath hlast hkind, herase]

/-- A project with an earlier export. -/
def exported : Disk where
  entries :=
    [ (["Gemfile".toList], .file false (.text "")),
      (["build".toList], .folder),
      (["build".toList, "old.html".toList], .file false (.text "<h1>Old</h1>")) ]
  sorted := by decide

/-- A crawler that fetches one page. -/
def onePage : Launcher := fun _ disk =>
  (.ok ⟨some 0, [], []⟩, (disk.insert ["build".toList] .folder).insert ["build".toList, "index.html".toList]
    (.file false (.text "<h1>Home</h1>")))

theorem mirror_wipes_export_stale :
    checkOutputFolder "build" = .ok ()
      ∧ (exported.erase ["build".toList]).lookup ["build".toList, "old.html".toList] = none
      ∧ (mirror onePage "/" "build" "wget" 3000).on (exported.erase ["build".toList])
        = (mirror onePage "/" "build" "wget" 3000).on exported := by
  have hclosed : ∀ disk ∈ [exported, exported.erase ["build".toList]], ∀ entry ∈ disk.entries,
      disk.lookup entry.1.dropLast = some .folder := by decide +kernel
  have hplain : ∀ disk ∈ [exported, exported.erase ["build".toList]], ∀ entry ∈ disk.entries,
      ∀ name ∈ entry.1.getLast?, Disk.IsStep name ∧ '/' ∉ name ∧ (entry.2.isFile || entry.2.isFolder) := by
    decide +kernel
  have htree : ∀ disk ∈ [exported, exported.erase ["build".toList]], Tree "/" [] disk := fun disk hdisk =>
    Disk.tree_of_plain_root (Disk.closed_of_forall_mem (hclosed disk hdisk))
      (Disk.plain_of_forall_mem (hplain disk hdisk) [])
  have hcheck : checkOutputFolder "build" = .ok () := rfl
  have hruns := (mirror_wipes_export (htree exported (by simp)) onePage "build" "wget" 3000).2 hcheck
  refine ⟨hcheck, by decide +kernel, ?_⟩
  refine hruns.2.2.2 _ (htree _ (by simp)) (by decide +kernel) (.inr (by decide +kernel)) (.inl (by decide +kernel))
    ⟨by decide +kernel, by decide +kernel, by decide +kernel⟩ (by decide +kernel)

/-- A path that ends in a dot passes the check, but the folder is not removed by it: a run
over an earlier export stops where a run without one goes through. -/
theorem mirror_stops_at_dot :
    (checkOutputFolder "build/.").toOption = some ()
      ∧ ((mirror onePage "/" "build/." "wget" 3000).on exported).1.toOption = none
      ∧ ((mirror onePage "/" "build/." "wget" 3000).on (exported.erase ["build".toList])).1.toOption
        = some ⟨true, false, none⟩ := by
  decide +kernel

end SiteScaffold.Export

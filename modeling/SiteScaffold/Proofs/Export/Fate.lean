/-
Where the files of an export are after its assets were moved (`Fate`). Outside the folder of
script modules every file is where it was or in the folder of its kind, under its name and
with its content, so one that finds its name taken stays in its place. From inside that folder
files can be lost: whatever is deeper in it and is no asset, and whatever finds its name taken
(`reorganize_keeps_files`). It takes no more than two scripts of one name
(`reorganize_drops_script`).

Each move keeps every file, so the moves of all kinds do (`Sorted`), and those of the script
modules do (`Joined`). Only the folder that goes at last takes files with it.
-/
import Mathlib.Data.List.TakeDrop
import SiteScaffold.Proofs.Export.Reorganize

namespace SiteScaffold.Export

open Disk (Tree Moved)
open Path (IsPlain under)

variable {disk disk' disk'' : Disk} {k top : Key} {site name : Text} {moves : Moves} {e : Entry}

-- ==================================================================== moves keep files

/-- Whether every file of a disk is on a later one where it was or in the folder of its kind. -/
def Sorted (top : Key) (disk disk' : Disk) : Prop :=
  ∀ k name e, e.isFile → disk.lookup (top ++ (k ++ [name])) = some e →
    disk'.lookup (top ++ (k ++ [name])) = some e
      ∨ ∃ kind, AssetKind.of? name = some kind
        ∧ disk'.lookup (top ++ (kind.home ++ [name])) = some e

/-- Whether every file of a disk is on a later one where it was or, if it was a script module,
among the scripts. -/
def Joined (top : Key) (disk disk' : Disk) : Prop :=
  ∀ k name e, e.isFile → disk.lookup (top ++ (k ++ [name])) = some e →
    disk'.lookup (top ++ (k ++ [name])) = some e
      ∨ k = modulesHome ∧ disk'.lookup (top ++ (AssetKind.script.home ++ [name])) = some e

/-- What is not moved stays, since nothing was in the place that something is moved to. -/
theorem lookup_of_moved {source target j : Key} (hmoved : Moved source target disk disk')
    (hne : j ≠ source) (h : disk.lookup j = some e) : disk'.lookup j = some e := by
  rw [hmoved.same j hne]
  · exact h
  · intro heq
    rw [heq, hmoved.free] at h
    cases h

theorem Sorted.moved {kind : AssetKind} (hkind : AssetKind.of? name = some kind)
    (hk : k ≠ kind.home)
    (hmoved : Moved (top ++ (k ++ [name])) (top ++ (kind.home ++ [name])) disk' disk'')
    (h : Sorted top disk disk') : Sorted top disk disk'' := by
  intro j n e hfile hbefore
  rcases h j n e hfile hbefore with hstays | ⟨kind', hkind', hhome⟩
  · by_cases heq : j ++ [n] = k ++ [name]
    · obtain ⟨x, c, hsource, htarget⟩ := hmoved.file
      rw [heq, hsource] at hstays
      cases hstays
      obtain ⟨-, hn⟩ := List.append_inj' heq rfl
      cases hn
      exact .inr ⟨kind, hkind, htarget⟩
    · exact .inl (lookup_of_moved hmoved (by simpa using heq) hstays)
  · refine .inr ⟨kind', hkind', lookup_of_moved hmoved ?_ hhome⟩
    intro heq
    -- what is moved comes from elsewhere
    obtain ⟨hhome', hn⟩ := List.append_inj' (List.append_cancel_left heq) rfl
    cases hn
    rw [hkind] at hkind'
    cases hkind'
    exact hk hhome'.symm

theorem Joined.moved
    (hmoved : Moved (top ++ (modulesHome ++ [name])) (top ++ (AssetKind.script.home ++ [name]))
      disk' disk'')
    (h : Joined top disk disk') : Joined top disk disk'' := by
  intro j n e hfile hbefore
  rcases h j n e hfile hbefore with hstays | ⟨hj, hscript⟩
  · by_cases heq : j ++ [n] = modulesHome ++ [name]
    · obtain ⟨x, c, hsource, htarget⟩ := hmoved.file
      rw [heq, hsource] at hstays
      cases hstays
      obtain ⟨hj, hn⟩ := List.append_inj' heq rfl
      cases hn
      exact .inr ⟨hj, htarget⟩
    · exact .inl (lookup_of_moved hmoved (by simpa using heq) hstays)
  · refine .inr ⟨hj, lookup_of_moved hmoved ?_ hscript⟩
    intro heq
    exact not_prefix_home .script [n] ⟨[name], (List.append_cancel_left heq).symm⟩

-- =========================================================================== all files

/-- Where a file is after all assets were moved, by its folder `k` and its name before. -/
inductive Fate (site : Text) (top : Key) (disk' : Disk) (k : Key) (name : Text) (e : Entry) : Prop
  /-- It is where it was. -/
  | stays (h : disk'.lookup (top ++ (k ++ [name])) = some e)
  /-- It is in the folder of its kind. -/
  | sorted {kind : AssetKind} (hkind : AssetKind.of? name = some kind)
      (h : disk'.lookup (top ++ (kind.home ++ [name])) = some e)
  /-- It was right in the folder of script modules and is among the scripts. -/
  | joined (hk : k = modulesHome) (h : disk'.lookup (top ++ (AssetKind.script.home ++ [name])) = some e)
  /-- It went with the folder of script modules, since something else has its name wherever it
  could have been moved to. -/
  | dropped (hk : modulesHome <+: k)
      (hkind : ∀ kind, AssetKind.of? name = some kind →
        disk'.holds (under site (kind.home ++ [name])) = true)
      (hscript : k = modulesHome →
        disk'.holds (under site (AssetKind.script.home ++ [name])) = true)

/-- What becomes of a file when the script modules are moved and their folder goes. -/
theorem Unfolding.fate (tree : Tree site top disk) (tree' : Tree site top disk'')
    (hgathered : ∀ kind, Gathered site top kind disk)
    (h : Unfolding site top (Joined top disk) disk [] disk')
    (hfolder : disk'.lookup (top ++ modulesHome) = some .folder)
    (hlookup : ∀ j, disk''.lookup j = if top ++ modulesHome <+: j then none else disk'.lookup j)
    (hfile : e.isFile) (hbefore : disk.lookup (top ++ (k ++ [name])) = some e) :
    Fate site top disk'' k name e := by
  have hkept : ∀ j, ¬ modulesHome <+: j → disk''.lookup (top ++ j) = disk'.lookup (top ++ j) := by
    intro j hj
    rw [hlookup, if_neg]
    rwa [List.prefix_append_right_inj]
  rcases h.keeps k name e hfile hbefore with hstays | ⟨hk, hscript⟩
  · by_cases hinside : modulesHome <+: k ++ [name]
    · have hk : modulesHome <+: k := by
        rcases List.prefix_concat_iff.1 hinside with heq | hk
        · -- the folder is no file
          rw [heq, hstays] at hfolder
          cases hfolder
          cases hfile
        · exact hk
      have hplain := tree.isPlain hbefore name (by simp)
      have htaken : ∀ kind : AssetKind, disk'.holds (under site (kind.home ++ [name])) = true →
          disk''.holds (under site (kind.home ++ [name])) = true := by
        intro kind hholds
        have hnames := isPlain_home_concat hplain kind
        obtain ⟨hpath, e', he⟩ := (h.tree.holds_iff (by simp) hnames).1 hholds
        rw [← hkept _ (not_prefix_home kind [name])] at he
        exact (tree'.holds_iff (by simp) hnames).2 ⟨hpath, e', he⟩
      obtain ⟨x, c, rfl⟩ : ∃ x c, e = .file x c := by
        cases e with
        | file x c => exact ⟨x, c, rfl⟩
        | folder | link target => cases hfile
      apply Fate.dropped hk
      · intro kind hkind
        apply htaken
        apply (hgathered kind).arranged tree h.tree h.arranged k name x c hstays hkind
        intro heq
        rw [heq] at hk
        exact not_prefix_home kind [] (by simpa using hk)
      · intro heq
        apply htaken
        rw [heq] at hbefore
        exact h.done name x c hbefore (by simp)
    · exact .stays (by rw [hkept _ hinside]; exact hstays)
  · exact .joined hk (by rw [hkept _ (not_prefix_home .script [name])]; exact hscript)

/-- Every file of an export has its content under its name where it was or where its kind is
kept after all assets were moved, unless it was in the folder of script modules and found its
name taken, or was deeper in it and is no asset. -/
theorem reorganize_keeps_files (tree : Tree site top disk)
    (h : (reorganize site).on disk = (.ok moves, disk')) (hfile : e.isFile)
    (hbefore : disk.lookup (top ++ (k ++ [name])) = some e) : Fate site top disk' k name e := by
  obtain ⟨all, disk₁, rest, hall, hfold, -⟩ := reorganize_parts h
  obtain ⟨tree₁, -, hgathered, -, hsorted⟩ := gatherAll_run tree (Sorted top disk)
    (fun kind k name disk disk' hkind hk hmoved => Sorted.moved hkind hk hmoved)
    (fun k name e hfile hbefore => .inl hbefore) hall
  rcases foldModules_run tree₁ (Joined top disk₁) (fun name disk disk' => Joined.moved)
      (fun k name e hfile hbefore => .inl hbefore) hfold with
    ⟨rfl, -⟩ | ⟨disk₃, hjoined, hfolder, tree₂, hlookup⟩
  · rcases hsorted k name e hfile hbefore with hstays | ⟨kind, hkind, hhome⟩
    · exact .stays hstays
    · exact .sorted hkind hhome
  · rcases hsorted k name e hfile hbefore with hstays | ⟨kind, hkind, hhome⟩
    · exact hjoined.fate tree₁ tree₂ hgathered hfolder hlookup hfile hstays
    · -- the folder of a kind is not that of script modules
      apply Fate.sorted hkind
      rw [hlookup, if_neg]
      · rcases hjoined.keeps kind.home name e hfile hhome with hhome' | ⟨heq, -⟩
        · exact hhome'
        · exact absurd heq.symm (modulesHome_ne_home kind)
      · rw [List.prefix_append_right_inj]
        exact not_prefix_home kind [name]

-- ===================================================================== what can be lost

/-- A small export with two scripts of one name, and what is no asset among the modules. -/
def twoScripts : Disk :=
  (((((((Disk.blank.insert ["build".toList] .folder)
    |>.insert ["build".toList, "assets".toList] .folder)
    |>.insert ["build".toList, "assets".toList, "controllers".toList] .folder)
    |>.insert ["build".toList, "assets".toList, "controllers".toList, "app.js".toList]
      (.file false (.text "second")))
    |>.insert ["build".toList, "assets".toList, "controllers".toList, "lib".toList] .folder)
    |>.insert ["build".toList, "assets".toList, "controllers".toList, "lib".toList, "notes.txt".toList]
      (.file false (.text "notes")))
    |>.insert ["build".toList, "app.js".toList] (.file false (.text "first")))

/-- The small export with the folders of all kinds. -/
def preparedScripts : Disk := ((prepareFolders "build").on twoScripts).2

theorem tree_preparedScripts : Tree "build" ["build".toList] preparedScripts := by
  have hclosed : preparedScripts.Closed := Disk.closed_of_forall_mem (by decide +kernel)
  have hplain : Disk.Plain preparedScripts [] := Disk.plain_of_forall_mem (by decide +kernel) []
  exact (Disk.tree_of_plain hclosed hplain).sub (k := ["build".toList]) (by decide +kernel)
    (by decide +kernel)

theorem reorganize_preparedScripts : (reorganize "build").on preparedScripts
    = (.ok ⟨1, 2⟩, ((reorganize "build").on preparedScripts).2) :=
  Edit.on_of_fst (by decide +kernel)

theorem reorganize_keeps_files_prepared :
    Fate "build" ["build".toList] ((reorganize "build").on preparedScripts).2 [] "app.js"
      (.file false (.text "first")) :=
  reorganize_keeps_files tree_preparedScripts reorganize_preparedScripts rfl (by decide +kernel)

/-- Of two scripts of one name the second is skipped, twice even, and is nowhere afterwards; so
is what lies deeper among the modules. -/
theorem reorganize_drops_script :
    ((prepareFolders "build").on twoScripts).1 = .ok ()
      ∧ preparedScripts.lookup ["build".toList, "assets".toList, "controllers".toList, "app.js".toList]
        = some (.file false (.text "second"))
      ∧ ((reorganize "build").on preparedScripts).1 = .ok ⟨1, 2⟩
      ∧ ∀ entry ∈ ((reorganize "build").on preparedScripts).2.entries,
        entry.2 ≠ .file false (.text "second") ∧ entry.2 ≠ .file false (.text "notes") := by
  decide +kernel

end SiteScaffold.Export

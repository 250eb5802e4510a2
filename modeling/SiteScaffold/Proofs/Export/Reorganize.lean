/-
What moving the assets of an export leaves. After it, the folder of each kind has something
under the name of every file of the kind that lies elsewhere (`Gathered`), so nothing is
left that a second pass would move. Every file comes from one with its name and content
(`Arranged.file`), nothing leaves the folder of its kind (`Arranged.home`), and a name that
some file of a kind had stands in the folder of the kind (`Arranged.named`).

The invariant `Arranged` holds of every single move, of the removal of the folder of script
modules once all kinds are gathered, and so, by transitivity, of the whole run. `Gathered`
is what the stage of a kind adds; the later stages and the removal keep it.
-/
import Mathlib.Data.List.Basic
import SiteScaffold.Export.Reorganize
import SiteScaffold.Proofs.Disk.Rearranged
import SiteScaffold.Proofs.Edit

namespace SiteScaffold.Export

open Disk (Tree IsPath IsStep Moved Furnished)
open Path (IsPlain under)

variable {disk disk' disk'' : Disk} {k top : Key} {site name path : Text} {kind : AssetKind} {c : Content}
  {x : Bool} {e : Entry}

-- ==================================================================== where kinds go

namespace AssetKind

/-- The place of the folder of a kind in the tree of the export. -/
def home (kind : AssetKind) : Key := ["assets".toList, kind.folderName]

/-- The names of the folders that are made. -/
theorem isStep_home (kind : AssetKind) : ∀ name ∈ kind.home, IsStep name ∧ '/' ∉ name := by
  have hnames : ∀ name ∈ kind.home, (Path.isIdle name = false ∧ name ≠ "..".toList
      ∧ Text.byteSize name ≤ Disk.longestName) ∧ '/' ∉ name := by
    cases kind <;> decide
  intro name hname
  obtain ⟨⟨hidle, hup, hsize⟩, hslash⟩ := hnames name hname
  exact ⟨⟨hidle, hup, hsize⟩, hslash⟩

theorem isPlain_home (kind : AssetKind) : ∀ name ∈ kind.home, IsPlain name := fun name hname =>
  ⟨(isStep_home kind name hname).1.isName, (isStep_home kind name hname).2⟩

theorem destination_eq (kind : AssetKind) (site : Text) : kind.destination site = under site kind.home := by
  have hnames := kind.isPlain_home
  rw [home, ← List.singleton_append, ← Path.join_under (by simp) hnames, Path.under_singleton]
  rfl

@[simp] theorem mem_all (kind : AssetKind) : kind ∈ all := by
  cases kind <;> decide

theorem home_inj {a b : AssetKind} (h : a.home = b.home) : a = b := by
  revert h
  cases a <;> cases b <;> decide

theorem of?_under (hnames : ∀ n ∈ k ++ [name], IsPlain n) :
    of? (under site (k ++ [name])) = of? name := by
  unfold of?
  rw [Path.extension?_under hnames]

end AssetKind

/-- The place of the folder of script modules. -/
def modulesHome : Key := ["assets".toList, "controllers".toList]

theorem isPlain_modulesHome : ∀ name ∈ modulesHome, IsPlain name := by
  have hnames : ∀ name ∈ modulesHome, (Path.isIdle name = false ∧ name ≠ "..".toList) ∧ '/' ∉ name := by
    decide
  intro name hname
  obtain ⟨⟨hidle, hup⟩, hslash⟩ := hnames name hname
  exact ⟨⟨hidle, hup⟩, hslash⟩

theorem modulesFolder_eq (site : Text) : modulesFolder site = under site modulesHome := by
  have hnames := isPlain_modulesHome
  rw [modulesHome, ← List.singleton_append, ← Path.join_under (by simp) hnames, Path.under_singleton]
  rfl

theorem modulesHome_ne_home (kind : AssetKind) : modulesHome ≠ kind.home := by
  cases kind <;> decide

/-- The folder of no kind is in it. -/
theorem not_prefix_home (kind : AssetKind) (k : Key) : ¬ modulesHome <+: kind.home ++ k := by
  intro h
  have hhome : modulesHome = kind.home := by
    refine (List.prefix_of_prefix_length_le h (List.prefix_append kind.home k) ?_).eq_of_length ?_
    · exact Nat.le_refl 2
    · rfl
  exact modulesHome_ne_home kind hhome

theorem not_prefix_home_self (kind : AssetKind) : ¬ modulesHome <+: kind.home := by
  simpa using not_prefix_home kind []

-- ============================================================ what happens to a tree

/-- What moving assets keeps, from one disk to a later one. -/
structure Arranged (top : Key) (disk disk' : Disk) : Prop where
  /-- No folder comes. -/
  folder : ∀ k, disk'.lookup (top ++ k) = some .folder → disk.lookup (top ++ k) = some .folder
  /-- Only the folder of script modules may go. -/
  kept : ∀ k, ¬ modulesHome <+: k → disk.lookup (top ++ k) = some .folder →
    disk'.lookup (top ++ k) = some .folder
  /-- A file that was not there before was elsewhere under its name, and comes into the folder
  of its kind or into that of scripts. -/
  file : ∀ k name x c, disk'.lookup (top ++ (k ++ [name])) = some (.file x c) →
    disk.lookup (top ++ (k ++ [name])) = some (.file x c)
      ∨ (∃ j, disk.lookup (top ++ (j ++ [name])) = some (.file x c)
          ∧ ∀ kind, AssetKind.of? name = some kind → j ≠ kind.home)
        ∧ (k = AssetKind.script.home ∨ ∃ kind, AssetKind.of? name = some kind ∧ k = kind.home
          ∧ disk.lookup (top ++ (k ++ [name])) = none)
  /-- What stands in the folder of its kind stays there. -/
  home : ∀ kind name e, AssetKind.of? name = some kind →
    disk.lookup (top ++ (kind.home ++ [name])) = some e →
    disk'.lookup (top ++ (kind.home ++ [name])) = some e
  /-- What is no asset stays, but for the folder of script modules. -/
  other : ∀ k name x c, AssetKind.of? name = none → ¬ modulesHome <+: k ++ [name] →
    disk.lookup (top ++ (k ++ [name])) = some (.file x c) →
    disk'.lookup (top ++ (k ++ [name])) = some (.file x c)
  /-- The name of a file is kept by some file, or is taken in the folder of its kind. -/
  named : ∀ kind name, AssetKind.of? name = some kind →
    (∃ k x c, disk.lookup (top ++ (k ++ [name])) = some (.file x c)) →
    (∃ k x c, disk'.lookup (top ++ (k ++ [name])) = some (.file x c))
      ∨ ∃ e, disk'.lookup (top ++ (kind.home ++ [name])) = some e

/-- Whether every file of a kind outside the folder of the kind finds its name taken there. -/
def Gathered (site : Text) (top : Key) (kind : AssetKind) (disk : Disk) : Prop :=
  ∀ k name x c, disk.lookup (top ++ (k ++ [name])) = some (.file x c) → AssetKind.of? name = some kind →
    k ≠ kind.home → disk.holds (under site (kind.home ++ [name])) = true

theorem isPlain_home_concat (hname : IsPlain name) (kind : AssetKind) :
    ∀ n ∈ kind.home ++ [name], IsPlain n :=
  Path.isPlain_concat kind.isPlain_home hname

namespace Arranged

theorem refl (top : Key) (disk : Disk) : Arranged top disk disk where
  folder := fun _ h => h
  kept := fun _ _ h => h
  file := fun _ _ _ _ h => .inl h
  home := fun _ _ _ _ h => h
  other := fun _ _ _ _ _ _ h => h
  named := fun _ _ _ h => .inl h

theorem trans (h : Arranged top disk disk') (h' : Arranged top disk' disk'') :
    Arranged top disk disk'' where
  folder := fun k hk => h.folder k (h'.folder k hk)
  kept := fun k hk hfolder => h'.kept k hk (h.kept k hk hfolder)
  file := by
    intro k name x c hlookup
    rcases h'.file k name x c hlookup with hbefore | ⟨⟨j, hj, haway⟩, hplace⟩
    · exact h.file k name x c hbefore
    · refine .inr ⟨?_, ?_⟩
      · rcases h.file j name x c hj with hbefore | ⟨hcame, -⟩
        · exact ⟨j, hbefore, haway⟩
        · exact hcame
      · rcases hplace with hscript | ⟨kind, hkind, rfl, hnone⟩
        · exact .inl hscript
        · refine .inr ⟨kind, hkind, rfl, ?_⟩
          refine Option.eq_none_iff_forall_ne_some.2 fun e he => ?_
          rw [h.home kind name e hkind he] at hnone
          cases hnone
  home := fun kind name e hkind he => h'.home kind name e hkind (h.home kind name e hkind he)
  other := fun k name x c hkind hk hfile => h'.other k name x c hkind hk (h.other k name x c hkind hk hfile)
  named := by
    intro kind name hkind hfile
    rcases h.named kind name hkind hfile with hfile | ⟨e, he⟩
    · exact h'.named kind name hkind hfile
    · exact .inr ⟨e, h'.home kind name e hkind he⟩

/-- A file moves into the folder of its kind, or into that of scripts, from elsewhere. -/
theorem of_moved {folder : Key} (hmoved : Moved (top ++ (k ++ [name])) (top ++ (folder ++ [name])) disk disk')
    (haway : ∀ kind, AssetKind.of? name = some kind → k ≠ kind.home)
    (hasset : AssetKind.of? name = none → modulesHome <+: k ++ [name])
    (hfolder : folder = AssetKind.script.home ∨ ∃ kind, AssetKind.of? name = some kind ∧ folder = kind.home) :
    Arranged top disk disk' := by
  obtain ⟨x, c, hsource, htarget⟩ := hmoved.file
  have hback : ∀ j e, j ≠ folder ++ [name] → disk'.lookup (top ++ j) = some e →
      disk.lookup (top ++ j) = some e := by
    intro j e hj hlookup
    by_cases hj' : j = k ++ [name]
    · rw [hj', hmoved.gone] at hlookup
      cases hlookup
    · rwa [hmoved.same _ (by simpa using hj') (by simpa using hj)] at hlookup
  have hstays : ∀ j e, j ≠ k ++ [name] → disk.lookup (top ++ j) = some e →
      disk'.lookup (top ++ j) = some e := by
    intro j e hj hlookup
    rw [hmoved.same _ (by simpa using hj)]
    · exact hlookup
    · intro heq
      rw [heq, hmoved.free] at hlookup
      cases hlookup
  refine ⟨fun j hj => hback j _ ?_ hj, fun j _ hj => hstays j _ ?_ hj, fun j n x' c' hlookup => ?_,
    fun kind n e hkind he => hstays _ e ?_ he, fun j n x' c' hkind hj hfile => hstays _ _ ?_ hfile,
    fun kind n _ => ?_⟩
  · rintro rfl
    rw [htarget] at hj
    cases hj
  · rintro rfl
    rw [hsource] at hj
    cases hj
  · by_cases heq : j ++ [n] = folder ++ [name]
    · obtain ⟨rfl, hn⟩ := List.append_inj' heq rfl
      cases hn
      rw [htarget] at hlookup
      cases hlookup
      refine .inr ⟨⟨k, hsource, haway⟩, ?_⟩
      rcases hfolder with hscript | ⟨kind, hkind, rfl⟩
      · exact .inl hscript
      · exact .inr ⟨kind, hkind, rfl, hmoved.free⟩
    · exact .inl (hback _ _ heq hlookup)
  · intro heq
    obtain ⟨rfl, hn⟩ := List.append_inj' heq rfl
    cases hn
    exact haway kind hkind rfl
  · intro heq
    obtain ⟨rfl, hn⟩ := List.append_inj' heq rfl
    cases hn
    exact hj (hasset hkind)
  · rintro ⟨j, x', c', hlookup⟩
    by_cases heq : j ++ [n] = k ++ [name]
    · obtain ⟨-, hn⟩ := List.append_inj' heq rfl
      cases hn
      exact .inl ⟨folder, x, c, htarget⟩
    · exact .inl ⟨j, x', c', hstays _ _ heq hlookup⟩

end Arranged

theorem Gathered.arranged (tree : Tree site top disk) (tree' : Tree site top disk')
    (harranged : Arranged top disk disk') (h : Gathered site top kind disk) :
    Gathered site top kind disk' := by
  intro k name x c hlookup hkind hk
  have hnames : ∀ n ∈ kind.home ++ [name], IsPlain n :=
    isPlain_home_concat (tree'.isPlain hlookup name (by simp)) kind
  have hholds : disk.holds (under site (kind.home ++ [name])) = true := by
    rcases harranged.file k name x c hlookup with hbefore | ⟨⟨j, hbefore, haway⟩, -⟩
    · exact h k name x c hbefore hkind hk
    · exact h j name x c hbefore hkind (haway kind hkind)
  obtain ⟨hpath, e, he⟩ := (tree.holds_iff (by simp) hnames).1 hholds
  exact (tree'.holds_iff (by simp) hnames).2 ⟨hpath, e, harranged.home kind name e hkind he⟩

/-- The folder of script modules goes when all kinds are gathered. -/
theorem Arranged.of_removed (tree : Tree site top disk)
    (hgathered : ∀ kind, Gathered site top kind disk)
    (hlookup : ∀ j, disk'.lookup j = if top ++ modulesHome <+: j then none else disk.lookup j) :
    Arranged top disk disk' := by
  have hback : ∀ j e, disk'.lookup j = some e → disk.lookup j = some e := by
    intro j e hj
    rw [hlookup] at hj
    split at hj
    next => cases hj
    next => exact hj
  have hstays : ∀ j, ¬ modulesHome <+: j → disk'.lookup (top ++ j) = disk.lookup (top ++ j) := by
    intro j hj
    rw [hlookup, if_neg]
    rwa [List.prefix_append_right_inj]
  refine ⟨fun j hj => hback _ _ hj, fun j hj hfolder => ?_, fun j n x c hj => .inl (hback _ _ hj),
    fun kind n e _ he => ?_, fun j n x c _ hj hfile => ?_, fun kind n hkind => ?_⟩
  · rw [hstays j hj]
    exact hfolder
  · rw [hstays _ (not_prefix_home kind [n])]
    exact he
  · rw [hstays _ hj]
    exact hfile
  · rintro ⟨k, x, c, hfile⟩
    by_cases hk : k = kind.home
    · exact .inl ⟨k, x, c, by rw [hstays _ (by rw [hk]; exact not_prefix_home kind [n])]; exact hfile⟩
    · have hnames := isPlain_home_concat (tree.isPlain hfile n (by simp)) kind
      obtain ⟨-, e, he⟩ := (tree.holds_iff (by simp) hnames).1 (hgathered kind k n x c hfile hkind hk)
      rw [← hstays _ (not_prefix_home kind [n])] at he
      exact .inr ⟨e, he⟩

-- ====================================================================== single moves

/-- A file is moved into a folder unless something has its name there. -/
theorem moveInto_cases (tree : Tree site top disk) {folder : Key} {moves : Moves}
    (hnames : ∀ n ∈ k ++ [name], IsPlain n) (hfolder : ∀ n ∈ folder, IsPlain n) (hne : folder ≠ [])
    (hsource : disk.lookup (top ++ (k ++ [name])) ≠ some .folder)
    (h : (moveInto (under site folder) (under site (k ++ [name]))).on disk = (.ok moves, disk')) :
    (disk.holds (under site (folder ++ [name])) = true ∧ moves = ⟨0, 1⟩ ∧ disk' = disk)
      ∨ (moves = ⟨1, 0⟩ ∧ IsPath (under site (folder ++ [name])) ∧ Tree site top disk'
        ∧ Moved (top ++ (k ++ [name])) (top ++ (folder ++ [name])) disk disk') := by
  have hnames' := Path.isPlain_concat hfolder (hnames name (by simp))
  unfold moveInto at h
  rw [Path.fileName?_under hnames] at h
  dsimp only at h
  rw [Path.join_under hne hnames', Edit.on_bind_ok (Edit.on_ask _)] at h
  cases hholds : disk.holds (under site (folder ++ [name])) with
  | true =>
      rw [hholds] at h
      cases h
      exact .inl ⟨rfl, rfl, rfl⟩
  | false =>
      rw [hholds] at h
      obtain ⟨⟨⟩, disk₁, hmove, hrest⟩ := Edit.on_bind_eq_ok.1 h
      cases hrest
      obtain ⟨hpath, hmoved, tree'⟩ := tree.move (by simp) hnames hnames' hsource hholds
        (Edit.on_change_eq_ok.1 hmove)
      exact .inr ⟨rfl, hpath, tree', hmoved⟩

/-- What moving one file into a folder comes to: afterwards the folder has something of its
name, and the file was moved there unless that was so before. -/
theorem moveInto_eq_ok (tree : Tree site top disk) {folder : Key} {moves : Moves}
    (hnames : ∀ n ∈ k ++ [name], IsPlain n) (hfolder : ∀ n ∈ folder, IsPlain n) (hne : folder ≠ [])
    (hsource : disk.lookup (top ++ (k ++ [name])) ≠ some .folder)
    (h : (moveInto (under site folder) (under site (k ++ [name]))).on disk = (.ok moves, disk')) :
    Tree site top disk' ∧ disk'.holds (under site (folder ++ [name])) = true
      ∧ (disk' = disk ∨ Moved (top ++ (k ++ [name])) (top ++ (folder ++ [name])) disk disk') := by
  rcases moveInto_cases tree hnames hfolder hne hsource h with
    ⟨hholds, -, rfl⟩ | ⟨-, hpath, tree', hmoved⟩
  · exact ⟨tree, hholds, .inl rfl⟩
  · obtain ⟨x, c, -, htarget⟩ := hmoved.file
    have hnames' := Path.isPlain_concat hfolder (hnames name (by simp))
    exact ⟨tree', (tree'.holds_iff (by simp) hnames').2 ⟨hpath, _, htarget⟩, .inr hmoved⟩

/-- Which entries of a walk are files of a kind that lie elsewhere. -/
theorem isStray_eq (tree : Tree site top disk) (kind : AssetKind)
    (hlookup : disk.lookup (top ++ (k ++ [name])) = some e) :
    (e.isFile && (Path.parent? (under site (k ++ [name]))).map Path.parts
        ≠ some (Path.parts (kind.destination site))
      && AssetKind.of? (under site (k ++ [name])) = some kind)
    = (e.isFile && (k ≠ kind.home && AssetKind.of? name = some kind)) := by
  have hnames := tree.isPlain hlookup
  have hparent : (Path.parent? (under site (k ++ [name]))).map Path.parts
      = some (Path.parts (under site kind.home)) ↔ k = kind.home :=
    Path.parent?_under hnames (by simp [AssetKind.home]) kind.isPlain_home
  rw [AssetKind.destination_eq, AssetKind.of?_under hnames, Bool.and_assoc]
  simp only [ne_eq, hparent]

/-- The files of a kind that lie elsewhere, in the order of a walk. -/
def strays (top : Key) (kind : AssetKind) (disk : Disk) : List (Key × Text) :=
  (disk.filesBelow top).filter fun file => file.1 ≠ kind.home && AssetKind.of? file.2 = some kind

theorem mem_strays_iff : (k, name) ∈ strays top kind disk
    ↔ (∃ x c, disk.lookup (top ++ (k ++ [name])) = some (.file x c)) ∧ AssetKind.of? name = some kind
      ∧ k ≠ kind.home := by
  simp only [strays, List.mem_filter, Disk.mem_filesBelow_iff, Bool.and_eq_true, decide_eq_true_eq]
  exact and_congr_right fun _ => and_comm

/-- The tree is walked if the system takes its path. -/
theorem filesOfKind_completes (tree : Tree site top disk) (hpath : IsPath site) (kind : AssetKind) :
    ∃ files, (filesOfKind site kind).on disk = (.ok files, disk) := by
  obtain ⟨start, -, hwalk⟩ := tree.walk hpath
  unfold filesOfKind
  rw [Edit.on_bind_ok (Edit.on_walk hwalk)]
  exact ⟨_, rfl⟩

theorem filesOfKind_eq_ok (tree : Tree site top disk) {files : List Text}
    (h : (filesOfKind site kind).on disk = (.ok files, disk')) :
    disk' = disk ∧ IsPath site
      ∧ files = (strays top kind disk).map fun file => under site (file.1 ++ [file.2]) := by
  unfold filesOfKind at h
  obtain ⟨visits, disk₁, hwalk, hrest⟩ := Edit.on_bind_eq_ok.1 h
  obtain ⟨hvisits, rfl⟩ := Edit.on_walk_eq_ok.1 hwalk
  have hpath := Disk.isPath_of_walk hvisits
  obtain ⟨start, hstart, hmet⟩ := tree.walk hpath
  rw [hmet] at hvisits
  cases hvisits
  cases hrest
  refine ⟨rfl, hpath, ?_⟩
  rw [List.filter_cons_of_neg (by simp [hstart]), List.filter_map, List.map_map]
  unfold strays Disk.filesBelow
  rw [← List.filterMap_eq_filter, List.map_filterMap, List.filter_filterMap, List.map_filterMap]
  refine List.filterMap_congr fun entry hmem => ?_
  obtain ⟨j, e⟩ := entry
  obtain ⟨hj, hlookup⟩ := Disk.mem_below_iff.1 hmem
  obtain ⟨k, name, rfl⟩ := List.eq_nil_or_concat' j |>.resolve_left hj
  simp only [Function.comp_apply, Option.guard, isStray_eq tree kind hlookup]
  cases e with
  | folder | link target => rfl
  | file x c =>
    simp only [Entry.isFile, Bool.true_and, if_true, List.getLast?_concat, List.dropLast_concat, Option.map_some,
      Option.filter_some]
    split
    next => rfl
    next => rfl

/-- The files of a kind that lie elsewhere. -/
theorem mem_filesOfKind (tree : Tree site top disk) {files : List Text}
    (h : (filesOfKind site kind).on disk = (.ok files, disk')) :
    disk' = disk ∧ IsPath site ∧ ∀ path, path ∈ files ↔ ∃ k name x c, path = under site (k ++ [name])
      ∧ disk.lookup (top ++ (k ++ [name])) = some (.file x c) ∧ AssetKind.of? name = some kind
      ∧ k ≠ kind.home := by
  obtain ⟨rfl, hpath, rfl⟩ := filesOfKind_eq_ok tree h
  refine ⟨rfl, hpath, fun path => List.mem_map.trans ⟨?_, ?_⟩⟩
  · rintro ⟨⟨k, name⟩, hmem, rfl⟩
    obtain ⟨⟨x, c, hlookup⟩, hkind, hk⟩ := mem_strays_iff.1 hmem
    exact ⟨k, name, x, c, rfl, hlookup, hkind, hk⟩
  · rintro ⟨k, name, x, c, rfl, hlookup, hkind, hk⟩
    exact ⟨(k, name), mem_strays_iff.2 ⟨⟨x, c, hlookup⟩, hkind, hk⟩, rfl⟩

-- ====================================================================== whole stages

/-- The moves of one kind. -/
def gather (site : Text) (kind : AssetKind) : Edit Moves := do
  moveAll (kind.destination site) (← filesOfKind site kind)

/-- A disk in the course of the moves of one kind, with the files that are left to look
at. -/
structure Gathering (site : Text) (top : Key) (kind : AssetKind) (disk : Disk) (left : List Text)
    (disk' : Disk) : Prop where
  tree : Tree site top disk'
  arranged : Arranged top disk disk'
  /-- Only the folder of the kind gains files. -/
  elsewhere : ∀ k name x c, disk'.lookup (top ++ (k ++ [name])) = some (.file x c) → k ≠ kind.home →
    disk.lookup (top ++ (k ++ [name])) = some (.file x c)
  /-- What is left are files of the kind that lay elsewhere. -/
  stray : ∀ path ∈ left, ∃ k name x c, path = under site (k ++ [name])
    ∧ disk.lookup (top ++ (k ++ [name])) = some (.file x c) ∧ AssetKind.of? name = some kind
    ∧ k ≠ kind.home
  /-- The names of all others are taken. -/
  done : ∀ k name x c, disk.lookup (top ++ (k ++ [name])) = some (.file x c) →
    AssetKind.of? name = some kind → k ≠ kind.home → under site (k ++ [name]) ∉ left →
    disk'.holds (under site (kind.home ++ [name])) = true

/-- A move of one kind takes a file from elsewhere into the folder of the kind, unless its name
is taken there. -/
theorem Gathering.moved (tree : Tree site top disk) {left : List Text} {moves : Moves}
    (h : Gathering site top kind disk (path :: left) disk')
    (hmove : (moveInto (kind.destination site) path).on disk' = (.ok moves, disk'')) :
    ∃ k name x c, path = under site (k ++ [name])
      ∧ disk.lookup (top ++ (k ++ [name])) = some (.file x c) ∧ AssetKind.of? name = some kind
      ∧ k ≠ kind.home ∧ Tree site top disk''
      ∧ disk''.holds (under site (kind.home ++ [name])) = true
      ∧ (disk'' = disk' ∨ Moved (top ++ (k ++ [name])) (top ++ (kind.home ++ [name])) disk' disk'') := by
  obtain ⟨k, name, x, c, rfl, hlookup, hkind, hk⟩ := h.stray path (List.mem_cons_self ..)
  have hsource : disk'.lookup (top ++ (k ++ [name])) ≠ some .folder := by
    intro hfolder
    rw [h.arranged.folder _ hfolder] at hlookup
    cases hlookup
  rw [AssetKind.destination_eq] at hmove
  obtain ⟨htree, hholds, hdisk⟩ := moveInto_eq_ok h.tree (tree.isPlain hlookup) kind.isPlain_home
    (by simp [AssetKind.home]) hsource hmove
  exact ⟨k, name, x, c, rfl, hlookup, hkind, hk, htree, hholds, hdisk⟩

theorem Gathering.step (tree : Tree site top disk) {left : List Text} {moves : Moves}
    (h : Gathering site top kind disk (path :: left) disk')
    (hmove : (moveInto (kind.destination site) path).on disk' = (.ok moves, disk'')) :
    Gathering site top kind disk left disk'' := by
  obtain ⟨k, name, x, c, rfl, hlookup, hkind, hk, htree, hholds, hdisk⟩ := h.moved tree hmove
  have hnames : ∀ n ∈ k ++ [name], IsPlain n := tree.isPlain hlookup
  have harranged : Arranged top disk' disk'' := by
    rcases hdisk with rfl | hmoved
    · exact .refl top disk''
    · refine .of_moved hmoved (fun kind' hkind' => ?_) (fun hnone => ?_) (.inr ⟨kind, hkind, rfl⟩)
      · rw [hkind] at hkind'
        cases hkind'
        exact hk
      · rw [hkind] at hnone
        cases hnone
  have hheld : ∀ n, IsPlain n → AssetKind.of? n = some kind →
      disk'.holds (under site (kind.home ++ [n])) = true →
      disk''.holds (under site (kind.home ++ [n])) = true := by
    intro n hn hkind hheld
    have hnames := isPlain_home_concat hn kind
    obtain ⟨hpath, e, he⟩ := (h.tree.holds_iff (by simp) hnames).1 hheld
    exact (htree.holds_iff (by simp) hnames).2 ⟨hpath, e, harranged.home kind n e hkind he⟩
  refine ⟨htree, h.arranged.trans harranged, fun j n x' c' hfile hj => ?_,
    fun path hpath => h.stray path (List.mem_cons_of_mem _ hpath), fun j n x' c' hfile hkind' hj hleft => ?_⟩
  · rcases hdisk with rfl | hmoved
    · exact h.elsewhere j n x' c' hfile hj
    · refine h.elsewhere j n x' c' ?_ hj
      rw [← hmoved.same]
      · exact hfile
      · intro heq
        rw [heq, hmoved.gone] at hfile
        cases hfile
      · intro heq
        obtain ⟨rfl, -⟩ := List.append_inj' (List.append_cancel_left heq) rfl
        exact hj rfl
  · by_cases heq : under site (j ++ [n]) = under site (k ++ [name])
    · have hkeys := Path.under_inj (by simp) (tree.isPlain hfile) (by simp) hnames heq
      obtain ⟨-, hn⟩ := List.append_inj' hkeys rfl
      cases hn
      exact hholds
    · refine hheld n (tree.isPlain hfile n (by simp)) hkind' (h.done j n x' c' hfile hkind' hj ?_)
      exact fun hmem => (List.mem_cons.1 hmem).elim heq hleft

/-- The moves of one kind gather it, and what each of them keeps they all keep. -/
theorem gather_run (tree : Tree site top disk) {moves : Moves} (Keeps : Disk → Prop)
    (hstep : ∀ k name disk disk', AssetKind.of? name = some kind → k ≠ kind.home →
      Moved (top ++ (k ++ [name])) (top ++ (kind.home ++ [name])) disk disk' → Keeps disk → Keeps disk')
    (hkeeps : Keeps disk) (h : (gather site kind).on disk = (.ok moves, disk')) :
    Tree site top disk' ∧ Arranged top disk disk' ∧ Gathered site top kind disk' ∧ IsPath site
      ∧ Keeps disk' := by
  obtain ⟨files, disk₁, hfiles, hmoves⟩ := Edit.on_bind_eq_ok.1 h
  obtain ⟨rfl, hpath, hmem⟩ := mem_filesOfKind tree hfiles
  obtain ⟨all, disk₂, hall, hrest⟩ := Edit.on_bind_eq_ok.1 hmoves
  cases hrest
  have hstart : Gathering site top kind disk₁ files disk₁ := {
    tree := tree
    arranged := .refl top disk₁
    elsewhere := fun _ _ _ _ hfile _ => hfile
    stray := fun path hmem' => (hmem path).1 hmem'
    done := fun k name x c hfile hkind hk hnot =>
      absurd ((hmem _).2 ⟨k, name, x, c, rfl, hfile, hkind, hk⟩) hnot }
  obtain ⟨hend, hlast⟩ := Edit.on_mapM_run
    (fun left disk => Gathering site top kind disk₁ left disk ∧ Keeps disk)
    (by
      intro path left disk moves disk' hbefore hmove
      obtain ⟨hgathering, hkeeps⟩ := hbefore
      refine ⟨hgathering.step tree hmove, ?_⟩
      obtain ⟨k, name, -, -, -, -, hkind, hk, -, -, hdisk⟩ := hgathering.moved tree hmove
      rcases hdisk with rfl | hmoved
      · exact hkeeps
      · exact hstep k name disk disk' hkind hk hmoved hkeeps) ⟨hstart, hkeeps⟩ hall
  refine ⟨hend.tree, hend.arranged, fun k name x c hfile hkind hk => ?_, hpath, hlast⟩
  exact hend.done k name x c (hend.elsewhere k name x c hfile hk) hkind hk (by simp)

/-- The files right in the folder of script modules. -/
def modules (top : Key) (disk : Disk) : List (Key × Text) :=
  ((disk.children (top ++ modulesHome)).filter (·.2.isFile)).map fun child => (modulesHome, child.1)

theorem mem_modules_iff : (k, name) ∈ modules top disk
    ↔ k = modulesHome ∧ ∃ x c, disk.lookup (top ++ (modulesHome ++ [name])) = some (.file x c) := by
  unfold modules
  rw [List.mem_map]
  constructor
  · rintro ⟨⟨n, e⟩, hmem, heq⟩
    cases heq
    obtain ⟨hmem, hfile⟩ := List.mem_filter.1 hmem
    have hlookup := Disk.mem_children_iff.1 hmem
    rw [List.append_assoc] at hlookup
    cases e with
    | folder | link target => cases hfile
    | file x c => exact ⟨rfl, x, c, hlookup⟩
  · rintro ⟨rfl, x, c, hlookup⟩
    refine ⟨(name, .file x c), List.mem_filter.2 ⟨Disk.mem_children_iff.2 ?_, rfl⟩, rfl⟩
    rwa [List.append_assoc]

/-- What is moved among the scripts. -/
theorem moduleFiles_eq (tree : Tree site top disk) {entries : List (Text × Entry)}
    (h : disk.list (modulesFolder site) = .ok entries) :
    (entries.filter (·.2.isFile)).map (fun (name, _) => Path.join (modulesFolder site) name)
      = (modules top disk).map fun file => under site (file.1 ++ [file.2]) := by
  have hne : modulesHome ≠ [] := by simp [modulesHome]
  rw [modulesFolder_eq] at h ⊢
  obtain rfl := tree.list hne isPlain_modulesHome h
  unfold modules
  rw [List.map_map]
  refine List.map_congr_left fun child hmem => ?_
  have hlookup := Disk.mem_children_iff.1 (List.mem_of_mem_filter hmem)
  rw [List.append_assoc] at hlookup
  exact Path.join_under hne (tree.isPlain hlookup)

theorem mem_moduleFiles (tree : Tree site top disk) {entries : List (Text × Entry)}
    (h : disk.list (modulesFolder site) = .ok entries) (path : Text) :
    path ∈ (entries.filter (·.2.isFile)).map (fun (name, _) => Path.join (modulesFolder site) name)
      ↔ ∃ name x c, path = under site (modulesHome ++ [name])
        ∧ disk.lookup (top ++ (modulesHome ++ [name])) = some (.file x c) := by
  rw [moduleFiles_eq tree h, List.mem_map]
  constructor
  · rintro ⟨⟨k, name⟩, hmem, rfl⟩
    obtain ⟨rfl, x, c, hlookup⟩ := mem_modules_iff.1 hmem
    exact ⟨name, x, c, rfl, hlookup⟩
  · rintro ⟨name, x, c, rfl, hlookup⟩
    exact ⟨(modulesHome, name), mem_modules_iff.2 ⟨rfl, x, c, hlookup⟩, rfl⟩

/-- A disk in the course of the moves of script modules, with the files that are left to look
at, and what each move keeps. -/
structure Unfolding (site : Text) (top : Key) (Keeps : Disk → Prop) (disk : Disk) (left : List Text)
    (disk' : Disk) : Prop where
  tree : Tree site top disk'
  arranged : Arranged top disk disk'
  keeps : Keeps disk'
  /-- What is left are files of the folder. -/
  module : ∀ path ∈ left, ∃ name x c, path = under site (modulesHome ++ [name])
    ∧ disk.lookup (top ++ (modulesHome ++ [name])) = some (.file x c)
  /-- The names of all others are taken among the scripts. -/
  done : ∀ name x c, disk.lookup (top ++ (modulesHome ++ [name])) = some (.file x c) →
    under site (modulesHome ++ [name]) ∉ left →
    disk'.holds (under site (AssetKind.script.home ++ [name])) = true

theorem Unfolding.step (tree : Tree site top disk) {Keeps : Disk → Prop} {left : List Text}
    {moves : Moves}
    (hstep : ∀ name disk disk', Moved (top ++ (modulesHome ++ [name]))
      (top ++ (AssetKind.script.home ++ [name])) disk disk' → Keeps disk → Keeps disk')
    (h : Unfolding site top Keeps disk (path :: left) disk')
    (hmove : (moveInto (AssetKind.script.destination site) path).on disk' = (.ok moves, disk'')) :
    Unfolding site top Keeps disk left disk'' := by
  obtain ⟨name, x, c, rfl, hlookup⟩ := h.module path (List.mem_cons_self ..)
  have hnames : ∀ n ∈ modulesHome ++ [name], IsPlain n := tree.isPlain hlookup
  have hsource : disk'.lookup (top ++ (modulesHome ++ [name])) ≠ some .folder := by
    intro hfolder
    rw [h.arranged.folder _ hfolder] at hlookup
    cases hlookup
  rw [AssetKind.destination_eq] at hmove
  obtain ⟨htree, hholds, hdisk⟩ := moveInto_eq_ok h.tree hnames AssetKind.script.isPlain_home
    (by simp [AssetKind.home]) hsource hmove
  have hheld : ∀ n, IsPlain n → disk'.holds (under site (AssetKind.script.home ++ [n])) = true →
      disk''.holds (under site (AssetKind.script.home ++ [n])) = true := by
    intro n hn hheld
    have hplain := isPlain_home_concat hn .script
    obtain ⟨hpath, e, he⟩ := (h.tree.holds_iff (by simp) hplain).1 hheld
    apply (htree.holds_iff (by simp) hplain).2
    refine ⟨hpath, e, ?_⟩
    rcases hdisk with rfl | hmoved
    · exact he
    · rw [hmoved.same]
      · exact he
      · intro heq
        exact not_prefix_home .script [n] ⟨[name], (List.append_cancel_left heq).symm⟩
      · intro heq
        rw [heq, hmoved.free] at he
        cases he
  refine ⟨htree, ?_, ?_, fun path hpath => h.module path (List.mem_cons_of_mem _ hpath),
    fun n y d hfile hleft => ?_⟩
  · rcases hdisk with rfl | hmoved
    · exact h.arranged
    · exact h.arranged.trans (.of_moved hmoved (fun kind _ => modulesHome_ne_home kind)
        (fun _ => List.prefix_append modulesHome [name]) (.inl rfl))
  · rcases hdisk with rfl | hmoved
    · exact h.keeps
    · exact hstep name disk' disk'' hmoved h.keeps
  · by_cases heq : under site (modulesHome ++ [n]) = under site (modulesHome ++ [name])
    · have hkeys := Path.under_inj (by simp) (tree.isPlain hfile) (by simp) hnames heq
      obtain ⟨-, hn⟩ := List.append_inj' hkeys rfl
      cases hn
      exact hholds
    · apply hheld n (tree.isPlain hfile n (by simp))
      apply h.done n y d hfile
      exact fun hmem => (List.mem_cons.1 hmem).elim heq hleft

/-- If there is a folder of script modules, the files right in it are moved among the scripts,
and it goes with what is left; if there is none, nothing happens. -/
theorem foldModules_run (tree : Tree site top disk) {moves : Moves} (Keeps : Disk → Prop)
    (hstep : ∀ name disk disk', Moved (top ++ (modulesHome ++ [name]))
      (top ++ (AssetKind.script.home ++ [name])) disk disk' → Keeps disk → Keeps disk')
    (hkeeps : Keeps disk) (h : (foldModules site).on disk = (.ok moves, disk')) :
    (disk' = disk ∧ disk.isFolder (modulesFolder site) = false)
      ∨ ∃ disk₁, Unfolding site top Keeps disk [] disk₁
        ∧ disk₁.lookup (top ++ modulesHome) = some .folder ∧ Tree site top disk'
        ∧ ∀ j, disk'.lookup j = if top ++ modulesHome <+: j then none else disk₁.lookup j := by
  unfold foldModules at h
  dsimp only at h
  rw [Edit.on_bind_ok (Edit.on_ask _)] at h
  by_cases hfolder : disk.isFolder (modulesFolder site) = true
  · rw [hfolder, if_neg (by simp)] at h
    obtain ⟨entries, disk₁, hlist, hafterlist⟩ := Edit.on_bind_eq_ok.1 h
    obtain ⟨hentries, hsame⟩ := Edit.on_look_eq_ok.1 hlist
    subst hsame
    obtain ⟨moved, disk₂, hmoves, haftermoves⟩ := Edit.on_bind_eq_ok.1 hafterlist
    obtain ⟨⟨⟩, disk₃, hremove, hanswer⟩ := Edit.on_bind_eq_ok.1 haftermoves
    obtain rfl : disk₃ = disk' := by
      cases hanswer
      rfl
    obtain ⟨all, disk₄, hall, hrest⟩ := Edit.on_bind_eq_ok.1 hmoves
    obtain rfl : disk₄ = disk₂ := by
      cases hrest
      rfl
    have hmem := mem_moduleFiles tree hentries
    have hstart : Unfolding site top Keeps disk₁ _ disk₁ :=
      ⟨tree, .refl top disk₁, hkeeps, fun path hpath => (hmem path).1 hpath,
        fun name x c hfile hnot => absurd ((hmem _).2 ⟨name, x, c, rfl, hfile⟩) hnot⟩
    have hend := Edit.on_mapM_run (Unfolding site top Keeps disk₁)
      (fun path left disk moves disk' hunfolding hmove => hunfolding.step tree hstep hmove) hstart hall
    -- their folder
    rw [modulesFolder_eq] at hremove
    have hgone := Edit.on_removeTree_eq_ok.1 hremove
    have hne : modulesHome ≠ [] := by simp [modulesHome]
    obtain ⟨tree', hlookup⟩ := hend.tree.removeTree hne isPlain_modulesHome hgone
    obtain ⟨-, hthere⟩ := hend.tree.folder_of_removeTree hne isPlain_modulesHome hgone
    exact .inr ⟨disk₄, hend, hthere, tree', hlookup⟩
  · rw [Bool.not_eq_true] at hfolder
    rw [hfolder] at h
    obtain rfl : disk = disk' := by
      cases h
      rfl
    exact .inl ⟨rfl, hfolder⟩

/-- The rest of the script modules is moved, and their folder goes. -/
theorem foldModules_eq_ok (tree : Tree site top disk) {moves : Moves}
    (hgathered : ∀ kind, Gathered site top kind disk)
    (h : (foldModules site).on disk = (.ok moves, disk')) :
    Tree site top disk' ∧ Arranged top disk disk' ∧ disk'.isFolder (modulesFolder site) = false := by
  rcases foldModules_run tree (fun _ => True) (fun _ _ _ _ _ => trivial) trivial h with
    ⟨rfl, hfolder⟩ | ⟨disk₁, hunfolded, -, tree', hlookup⟩
  · exact ⟨tree, .refl top disk', hfolder⟩
  · have hgathered' : ∀ kind, Gathered site top kind disk₁ := fun kind =>
      (hgathered kind).arranged tree hunfolded.tree hunfolded.arranged
    refine ⟨tree', hunfolded.arranged.trans (.of_removed hunfolded.tree hgathered' hlookup),
      Bool.eq_false_iff.2 fun hstill => ?_⟩
    rw [modulesFolder_eq] at hstill
    obtain ⟨-, hfolder⟩ := (tree'.isFolder_iff (by simp [modulesHome]) isPlain_modulesHome).1 hstill
    rw [hlookup, if_pos (List.prefix_refl _)] at hfolder
    cases hfolder

theorem reorganize_eq (site : Text) : reorganize site = (do
    let moves ← AssetKind.all.mapM (gather site)
    let rest ← foldModules site
    return (Moves.total moves).add rest) := rfl

/-- Moving all assets is moving those of each kind and then merging the script modules. -/
theorem reorganize_parts {moves : Moves} (h : (reorganize site).on disk = (.ok moves, disk')) :
    ∃ all mid rest, (AssetKind.all.mapM (gather site)).on disk = (.ok all, mid)
      ∧ (foldModules site).on mid = (.ok rest, disk') ∧ moves = (Moves.total all).add rest := by
  rw [reorganize_eq] at h
  obtain ⟨all, mid, hall, hafter⟩ := Edit.on_bind_eq_ok.1 h
  obtain ⟨rest, last, hfold, hanswer⟩ := Edit.on_bind_eq_ok.1 hafter
  cases hanswer
  exact ⟨all, mid, rest, hall, hfold, rfl⟩

/-- What the moves of all kinds come to, and what each of them keeps. -/
theorem gatherAll_run (tree : Tree site top disk) {all : List Moves} (Keeps : Disk → Prop)
    (hstep : ∀ kind k name disk disk', AssetKind.of? name = some kind → k ≠ kind.home →
      Moved (top ++ (k ++ [name])) (top ++ (kind.home ++ [name])) disk disk' → Keeps disk → Keeps disk')
    (hkeeps : Keeps disk) (h : (AssetKind.all.mapM (gather site)).on disk = (.ok all, disk')) :
    Tree site top disk' ∧ Arranged top disk disk' ∧ (∀ kind, Gathered site top kind disk')
      ∧ IsPath site ∧ Keeps disk' := by
  obtain ⟨tree', harranged, hgathered, hpath, hlast⟩ := Edit.on_mapM_run
    (fun left disk₁ => Tree site top disk₁ ∧ Arranged top disk disk₁
      ∧ (∀ kind, kind ∉ left → Gathered site top kind disk₁) ∧ (left ≠ AssetKind.all → IsPath site)
      ∧ Keeps disk₁)
    (by
      intro kind left disk₁ moves disk₂ hbefore hgather
      obtain ⟨tree₁, harranged, hgathered, -, hkeeps⟩ := hbefore
      obtain ⟨tree₂, harranged', hgathered', hpath, hkeeps'⟩ :=
        gather_run tree₁ Keeps (hstep kind) hkeeps hgather
      refine ⟨tree₂, harranged.trans harranged', fun kind' hleft => ?_, fun _ => hpath, hkeeps'⟩
      by_cases heq : kind' = kind
      · rw [heq]
        exact hgathered'
      · exact (hgathered kind' (by simp [heq, hleft])).arranged tree₁ tree₂ harranged')
    ⟨tree, .refl top disk, fun kind hkind => absurd kind.mem_all hkind,
      fun hne => absurd rfl hne, hkeeps⟩ h
  exact ⟨tree', harranged, fun kind => hgathered kind (by simp), hpath (by decide), hlast⟩

/-- What moving all assets comes to. -/
theorem reorganize_eq_ok (tree : Tree site top disk) {moves : Moves}
    (h : (reorganize site).on disk = (.ok moves, disk')) :
    Tree site top disk' ∧ Arranged top disk disk' ∧ (∀ kind, Gathered site top kind disk')
      ∧ disk'.isFolder (modulesFolder site) = false ∧ IsPath site := by
  obtain ⟨all, disk₁, rest, hall, hfold, -⟩ := reorganize_parts h
  obtain ⟨tree₁, harranged, hgathered, hpath, -⟩ :=
    gatherAll_run tree (fun _ => True) (fun _ _ _ _ _ _ _ _ _ => trivial) trivial hall
  obtain ⟨tree₂, harranged', hgone⟩ := foldModules_eq_ok tree₁ hgathered hfold
  exact ⟨tree₂, harranged.trans harranged', fun kind => (hgathered kind).arranged tree₁ tree₂ harranged',
    hgone, hpath⟩

-- ====================================================================== the folders

/-- Whether a place is that of a folder made for assets. -/
def IsHome (top j : Key) : Prop := ∃ kind : AssetKind, ∃ k, k <+: kind.home ∧ j = top ++ k

/-- What making the folders comes to. -/
theorem prepareFolders_eq_ok (tree : Tree site top disk)
    (h : (prepareFolders site).on disk = (.ok (), disk')) :
    Tree site top disk' ∧ Furnished (IsHome top) disk disk'
      ∧ ∀ kind : AssetKind, disk'.isFolder (kind.destination site) = true := by
  have hstep : ∀ (kind : AssetKind) (disk disk' : Disk), Tree site top disk →
      (Edit.makeFolders (kind.destination site)).on disk = (.ok (), disk') →
      Furnished (IsHome top) disk disk' ∧ Tree site top disk' ∧ disk'.isFolder (kind.destination site) := by
    intro kind disk disk' tree hmake
    rw [AssetKind.destination_eq] at hmake ⊢
    exact tree.makeFolders (by simp [AssetKind.home]) kind.isStep_home (fun front _ hfront => ⟨kind, front, hfront, rfl⟩)
      (Edit.on_makeFolders_eq_ok.1 hmake)
  obtain ⟨htree, hfurnished, hfolders⟩ := Edit.on_forM_run
    (fun left disk₁ => Tree site top disk₁ ∧ Furnished (IsHome top) disk disk₁
      ∧ ∀ kind : AssetKind, kind ∉ left → disk₁.isFolder (kind.destination site) = true)
    (by
      rintro kind left disk₁ disk₂ ⟨tree₁, hfurnished, hfolders⟩ hmake
      obtain ⟨hfurnished', tree₂, hfolder⟩ := hstep kind disk₁ disk₂ tree₁ hmake
      refine ⟨tree₂, hfurnished.trans hfurnished', fun kind' hleft => ?_⟩
      by_cases heq : kind' = kind
      · rw [heq]
        exact hfolder
      · have hbefore := hfolders kind' (by simp [heq, hleft])
        rw [AssetKind.destination_eq] at hbefore ⊢
        obtain ⟨hpath, hlookup⟩ := (tree₁.isFolder_iff (by simp [AssetKind.home]) kind'.isPlain_home).1 hbefore
        exact (tree₂.isFolder_iff (by simp [AssetKind.home]) kind'.isPlain_home).2
          ⟨hpath, hfurnished'.kept _ _ hlookup⟩)
    ⟨tree, .refl _ disk, fun kind hkind => absurd kind.mem_all hkind⟩ h
  exact ⟨htree, hfurnished, fun kind => hfolders kind (by simp)⟩

-- ========================================================================== once more

/-- Folders that are there are not made again. -/
theorem prepareFolders_again (tree : Tree site top disk)
    (hfolders : ∀ kind : AssetKind, disk.isFolder (kind.destination site) = true) :
    (prepareFolders site).on disk = (.ok (), disk) := by
  refine Edit.on_forM_same fun kind _ => Edit.on_makeFolders ?_
  have hfolder := hfolders kind
  rw [AssetKind.destination_eq] at hfolder ⊢
  exact tree.makeFolders_of_isFolder (by simp [AssetKind.home]) kind.isPlain_home hfolder

theorem Moves.total_cons (moves : Moves) (all : List Moves) :
    Moves.total (moves :: all) = moves.add (Moves.total all) := by
  have hstart : ∀ (all : List Moves) (start : Moves), all.foldl Moves.add start = start.add (Moves.total all) := by
    intro all
    induction all with
    | nil => exact fun _ => rfl
    | cons moves all ih =>
        intro start
        unfold Moves.total
        rw [List.foldl_cons, List.foldl_cons, ih, ih (Moves.none.add moves)]
        simp [Moves.add, Moves.none, Nat.add_assoc]
  show all.foldl Moves.add (Moves.none.add moves) = _
  rw [hstart]
  simp [Moves.add, Moves.none]

theorem moved_total {all : List Moves} (h : ∀ moves ∈ all, moves.moved = 0) :
    (Moves.total all).moved = 0 := by
  induction all with
  | nil => rfl
  | cons moves all ih =>
      rw [Moves.total_cons]
      show moves.moved + (Moves.total all).moved = 0
      rw [h moves (List.mem_cons_self ..), ih fun m hm => h m (List.mem_cons_of_mem _ hm)]

/-- A file that finds its name taken is skipped. -/
theorem moveInto_again (tree : Tree site top disk) (hgathered : Gathered site top kind disk)
    (hfile : disk.lookup (top ++ (k ++ [name])) = some (.file x c)) (hkind : AssetKind.of? name = some kind)
    (hk : k ≠ kind.home) :
    (moveInto (kind.destination site) (under site (k ++ [name]))).on disk = (.ok ⟨0, 1⟩, disk) := by
  have hnames := tree.isPlain hfile
  unfold moveInto
  rw [Path.fileName?_under hnames, AssetKind.destination_eq]
  dsimp only
  rw [Path.join_under (by simp [AssetKind.home]) (isPlain_home_concat (hnames name (by simp)) kind),
    Edit.on_bind_ok (Edit.on_ask _), hgathered k name x c hfile hkind hk]
  rfl

/-- A kind that is gathered is not moved again. -/
theorem gather_again (tree : Tree site top disk) (hpath : IsPath site)
    (hgathered : Gathered site top kind disk) :
    ∃ moves, (gather site kind).on disk = (.ok moves, disk) ∧ moves.moved = 0 := by
  obtain ⟨files, hfiles⟩ := filesOfKind_completes tree hpath kind
  obtain ⟨-, -, hmem⟩ := mem_filesOfKind tree hfiles
  have hskipped : ∀ path ∈ files, ∃ moves,
      (moveInto (kind.destination site) path).on disk = (.ok moves, disk) ∧ moves.moved = 0 := by
    intro path hpath
    obtain ⟨k, name, x, c, rfl, hfile, hkind, hk⟩ := (hmem path).1 hpath
    exact ⟨⟨0, 1⟩, moveInto_again tree hgathered hfile hkind hk, rfl⟩
  obtain ⟨all, hall, hnone⟩ := Edit.on_mapM_same (fun moves : Moves => moves.moved = 0) hskipped
  refine ⟨.total all, ?_, moved_total hnone⟩
  unfold gather moveAll
  rw [Edit.on_bind_ok hfiles, Edit.on_bind_ok hall]
  rfl

/-- Nothing is moved twice. -/
theorem reorganize_again (tree : Tree site top disk) (hpath : IsPath site)
    (hgathered : ∀ kind, Gathered site top kind disk)
    (hgone : disk.isFolder (modulesFolder site) = false) :
    ∃ moves, (reorganize site).on disk = (.ok moves, disk) ∧ moves.moved = 0 := by
  have hskipped : ∀ kind ∈ AssetKind.all, ∃ moves,
      (gather site kind).on disk = (.ok moves, disk) ∧ moves.moved = 0 := fun kind _ =>
    gather_again tree hpath (hgathered kind)
  obtain ⟨all, hall, hnone⟩ := Edit.on_mapM_same (fun moves : Moves => moves.moved = 0) hskipped
  have hfold : (foldModules site).on disk = (.ok .none, disk) := by
    unfold foldModules
    dsimp only
    rw [Edit.on_bind_ok (Edit.on_ask _), hgone]
    rfl
  refine ⟨(Moves.total all).add .none, ?_, ?_⟩
  · rw [reorganize_eq, Edit.on_bind_ok hall, Edit.on_bind_ok hfold]
    rfl
  · show (Moves.total all).moved + 0 = 0
    rw [moved_total hnone]

end SiteScaffold.Export

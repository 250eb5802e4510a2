/-
That moving the assets of an export goes through. It does in every tree in which the folders
of the kinds are made, if the system takes the paths of its files and of the places that
assets have in those folders (`Ready`): whatever fills a name there, a file is either
skipped or moved (`moveInto_completes`), and no folder goes before the last step.

Each stage leaves a tree that is ready for the next one (`Ready.gather`), since what it moves
gets to a place whose path was asked for. The merge of the script modules moves files of any
kind among the scripts, but the paths there are shorter than those they come from
(`isPath_script`).
-/
import SiteScaffold.Proofs.Disk.Shifted
import SiteScaffold.Proofs.Export.FirstWriter

namespace SiteScaffold.Export

open Disk (Tree IsPath Moved)
open Path (IsPlain under)

variable {disk disk' : Disk} {folder k top : Key} {site name : Text} {file : Key × Text}
  {files : List (Key × Text)}

-- ====================================================================== single moves

/-- Whether a file is there and the system takes its path and that of its place in a folder. -/
structure Movable (site : Text) (top folder : Key) (disk : Disk) (file : Key × Text) : Prop where
  there : ∃ x c, disk.lookup (top ++ (file.1 ++ [file.2])) = some (.file x c)
  path : IsPath (under site (file.1 ++ [file.2]))
  place : IsPath (under site (folder ++ [file.2]))

theorem moveInto_completes (tree : Tree site top disk) (hne : folder ≠ [])
    (hfolder : disk.lookup (top ++ folder) = some .folder) (h : Movable site top folder disk file) :
    ∃ moves disk', (moveInto (under site folder) (under site (file.1 ++ [file.2]))).on disk
      = (.ok moves, disk') := by
  obtain ⟨x, c, hfile⟩ := h.there
  have hnames := tree.isPlain hfile
  have hnames' := Path.isPlain_concat (tree.isPlain hfolder) (hnames file.2 (by simp))
  unfold moveInto
  rw [Path.fileName?_under hnames]
  dsimp only
  rw [Path.join_under hne hnames', Edit.on_bind_ok (Edit.on_ask _)]
  cases hholds : disk.holds (under site (folder ++ [file.2])) with
  | true => exact ⟨_, _, rfl⟩
  | false =>
      have hfree : disk.lookup (top ++ (folder ++ [file.2])) = none := by
        refine Option.eq_none_iff_forall_ne_some.2 fun e he => ?_
        rw [(tree.holds_iff (by simp) hnames').2 ⟨h.place, e, he⟩] at hholds
        cases hholds
      have houtside : ¬ file.1 ++ [file.2] <+: folder := by
        rintro ⟨t, rfl⟩
        have habove : disk.lookup (top ++ (file.1 ++ [file.2])) = some .folder := by
          by_cases ht : t = []
          · rwa [ht, List.append_nil] at hfolder
          · rw [← List.append_assoc] at hfolder
            exact tree.closed.above hfolder ht
        rw [hfile] at habove
        cases habove
      obtain ⟨hstep, hslash, -⟩ := tree.plain _ _ _ hfile
      obtain ⟨disk', hmove, -, -⟩ := tree.shift (by simp) h.path h.place hfile hfolder hfree houtside hstep hslash
      have hmoved : (Edit.move (under site (file.1 ++ [file.2])) (under site (folder ++ [file.2]))).on disk
          = (.ok (), disk') := Edit.on_change hmove
      refine ⟨⟨1, 0⟩, disk', ?_⟩
      rw [if_neg (by simp), Edit.on_bind_ok hmoved]
      rfl

/-- What one move leaves for the others. -/
theorem Movable.of_moved {source : Key × Text}
    (hmoved : Moved (top ++ (source.1 ++ [source.2])) (top ++ (folder ++ [source.2])) disk disk')
    (hne : file ≠ source) (h : Movable site top folder disk file) : Movable site top folder disk' file where
  there := by
    obtain ⟨x, c, hfile⟩ := h.there
    refine ⟨x, c, lookup_of_moved hmoved (fun heq => hne ?_) hfile⟩
    obtain ⟨hfolder, hname⟩ := List.append_inj' (List.append_cancel_left heq) rfl
    exact Prod.ext hfolder (by simpa using hname)
  path := h.path
  place := h.place

theorem folder_of_moved {source target j : Key} (hmoved : Moved source target disk disk')
    (h : disk.lookup j = some .folder) : disk'.lookup j = some .folder := by
  obtain ⟨x, c, hsource, -⟩ := hmoved.file
  refine lookup_of_moved hmoved ?_ h
  rintro rfl
  rw [hsource] at h
  cases h

/-- A disk in the course of the moves into a folder, with the files that are left to move. -/
structure Moving (site : Text) (top folder : Key) (disk : Disk) (left : List (Key × Text)) (disk' : Disk) :
    Prop where
  tree : Tree site top disk'
  /-- No folder goes. -/
  kept : ∀ j, disk.lookup j = some .folder → disk'.lookup j = some .folder
  movable : ∀ file ∈ left, Movable site top folder disk' file
  nodup : left.Nodup

theorem Moving.step (hne : folder ≠ []) (hfolder : disk.lookup (top ++ folder) = some .folder)
    (h : Moving site top folder disk (file :: files) disk') :
    ∃ moves disk'', (moveInto (under site folder) (under site (file.1 ++ [file.2]))).on disk' = (.ok moves, disk'')
      ∧ Moving site top folder disk files disk'' := by
  obtain ⟨hnot, hnodup⟩ := List.nodup_cons.1 h.nodup
  have hmovable := h.movable file (List.mem_cons_self ..)
  have hothers : ∀ file' ∈ files, Movable site top folder disk' file' := fun file' hmem =>
    h.movable file' (List.mem_cons_of_mem _ hmem)
  have hthere := h.kept _ hfolder
  obtain ⟨moves, disk'', hmove⟩ := moveInto_completes h.tree hne hthere hmovable
  obtain ⟨x, c, hfile⟩ := hmovable.there
  refine ⟨moves, disk'', hmove, ?_⟩
  rcases moveInto_cases h.tree (h.tree.isPlain hfile) (h.tree.isPlain hthere) hne (by rw [hfile]; simp) hmove with
    ⟨-, -, rfl⟩ | ⟨-, -, tree, hmoved⟩
  · exact ⟨h.tree, h.kept, hothers, hnodup⟩
  · refine ⟨tree, fun j hj => folder_of_moved hmoved (h.kept j hj), fun file' hmem => ?_, hnodup⟩
    refine (hothers file' hmem).of_moved hmoved ?_
    rintro rfl
    exact hnot hmem

/-- Files are moved into a folder one after the other. -/
theorem moveAll_completes (tree : Tree site top disk) (hne : folder ≠ [])
    (hfolder : disk.lookup (top ++ folder) = some .folder)
    (hfiles : ∀ file ∈ files, Movable site top folder disk file) (hnodup : files.Nodup) :
    ∃ moves disk', (moveAll (under site folder) (files.map fun file => under site (file.1 ++ [file.2]))).on disk
        = (.ok moves, disk')
      ∧ Moving site top folder disk [] disk' := by
  obtain ⟨all, disk', hall, hmoving⟩ := Edit.on_mapM_completes (Moving site top folder disk)
    (fun file left disk' h => h.step hne hfolder) ⟨tree, fun _ h => h, hfiles, hnodup⟩
  refine ⟨.total all, disk', ?_, hmoving⟩
  unfold moveAll
  rw [List.mapM_map]
  exact Edit.on_bind_ok hall

-- ======================================================================== the stages

/-- Whether the system takes the paths of the files of an export and of the places that assets
have in the folders of their kinds. -/
structure Addressable (site : Text) (top : Key) (disk : Disk) : Prop where
  root : IsPath site
  path : ∀ k name x c, disk.lookup (top ++ (k ++ [name])) = some (.file x c) → IsPath (under site (k ++ [name]))
  place : ∀ kind k name x c, AssetKind.of? name = some kind →
    disk.lookup (top ++ (k ++ [name])) = some (.file x c) → IsPath (under site (kind.home ++ [name]))

/-- A file that was moved to the folder of its kind is addressed there. -/
theorem Addressable.moved {kind : AssetKind} (hkind : AssetKind.of? name = some kind)
    (hmoved : Moved (top ++ (k ++ [name])) (top ++ (kind.home ++ [name])) disk disk')
    (h : Addressable site top disk) : Addressable site top disk' := by
  obtain ⟨x, c, hsource, htarget⟩ := hmoved.file
  have hback : ∀ j n y d, disk'.lookup (top ++ (j ++ [n])) = some (.file y d) →
      j ++ [n] = kind.home ++ [name] ∨ disk.lookup (top ++ (j ++ [n])) = some (.file y d) := by
    intro j n y d hfile
    by_cases htarget' : j ++ [n] = kind.home ++ [name]
    · exact .inl htarget'
    · refine .inr ?_
      rw [← hmoved.same _ ?_ (by simpa using htarget')]
      · exact hfile
      · intro heq
        rw [heq, hmoved.gone] at hfile
        cases hfile
  refine ⟨h.root, fun j n y d hfile => ?_, fun kind' j n y d hkind' hfile => ?_⟩
  · rcases hback j n y d hfile with heq | hbefore
    · rw [heq]
      exact h.place kind k name x c hkind hsource
    · exact h.path j n y d hbefore
  · rcases hback j n y d hfile with heq | hbefore
    · obtain ⟨-, hn⟩ := List.append_inj' heq rfl
      obtain rfl : n = name := by simpa using hn
      exact h.place kind' k n x c hkind' hsource
    · exact h.place kind' j n y d hkind' hbefore

/-- Whether the assets of an export can be moved: the folders of the kinds are there, and the
system takes all paths. -/
structure Ready (site : Text) (top : Key) (disk : Disk) : Prop where
  tree : Tree site top disk
  homes : ∀ kind : AssetKind, disk.lookup (top ++ kind.home) = some .folder
  addressable : Addressable site top disk

/-- An export is ready once the folders are made. -/
theorem ready_of_prepared (tree : Tree site top disk) (h : (prepareFolders site).on disk = (.ok (), disk'))
    (haddressable : Addressable site top disk') : Ready site top disk' := by
  obtain ⟨tree', -, hfolders⟩ := prepareFolders_eq_ok tree h
  refine ⟨tree', fun kind => ?_, haddressable⟩
  have hfolder := hfolders kind
  rw [AssetKind.destination_eq] at hfolder
  exact ((tree'.isFolder_iff (by simp [AssetKind.home]) kind.isPlain_home).1 hfolder).2

/-- A path among the scripts is shorter than that of a script module of the same name. -/
theorem isPath_script (hname : IsPlain name) (h : IsPath (under site (modulesHome ++ [name]))) :
    IsPath (under site (AssetKind.script.home ++ [name])) := by
  have hlong : under site (modulesHome ++ [name]) = Path.stem site ++ ("assets/controllers/".toList ++ name) := by
    rw [Path.under_eq (by simp) (Path.isPlain_concat isPlain_modulesHome hname)]
    simp [modulesHome, Text.join, List.intercalate]
  have hshort : under site (AssetKind.script.home ++ [name]) = Path.stem site ++ ("assets/js/".toList ++ name) := by
    rw [Path.under_eq (by simp) (isPlain_home_concat hname .script)]
    simp [AssetKind.home, AssetKind.folderName, Text.join, List.intercalate]
  have hnul := h.noNul
  have hsize := h.size
  rw [hlong] at hnul hsize
  have hshorter : Text.byteSize "assets/js/".toList ≤ Text.byteSize "assets/controllers/".toList := by decide
  refine ⟨?_, Path.under_ne_nil (by simp) (isPlain_home_concat hname .script), ?_⟩
  · rw [hshort]
    rw [List.mem_append, List.mem_append, not_or, not_or] at hnul ⊢
    exact ⟨hnul.1, by decide, hnul.2.2⟩
  · rw [Text.byteSize_append, Text.byteSize_append] at hsize
    rw [hshort, Text.byteSize_append, Text.byteSize_append]
    omega

namespace Ready

variable (h : Ready site top disk)

include h

/-- The moves of one kind go through and leave what is ready for the others. -/
theorem gather (kind : AssetKind) : ∃ moves disk', (Export.gather site kind).on disk = (.ok moves, disk')
    ∧ Ready site top disk' := by
  obtain ⟨files, hfiles⟩ := filesOfKind_completes h.tree h.addressable.root kind
  obtain ⟨-, -, hpaths⟩ := filesOfKind_eq_ok h.tree hfiles
  have hmovable : ∀ file ∈ strays top kind disk, Movable site top kind.home disk file := by
    rintro ⟨k, name⟩ hmem
    obtain ⟨⟨x, c, hfile⟩, hkind, -⟩ := mem_strays_iff.1 hmem
    exact ⟨⟨x, c, hfile⟩, h.addressable.path k name x c hfile, h.addressable.place kind k name x c hkind hfile⟩
  obtain ⟨moves, disk', hmoves, hmoving⟩ := moveAll_completes h.tree (by simp [AssetKind.home]) (h.homes kind)
    hmovable (Key.nodup_of_sorted (sorted_strays top kind disk))
  have hgather : (Export.gather site kind).on disk = (.ok moves, disk') := by
    unfold Export.gather
    rw [Edit.on_bind_ok hfiles, hpaths, AssetKind.destination_eq, hmoves]
  obtain ⟨-, -, -, -, haddressable⟩ := gather_run h.tree (Addressable site top)
    (fun k name disk disk' hkind _ hmoved => Addressable.moved hkind hmoved) h.addressable hgather
  exact ⟨moves, disk', hgather, hmoving.tree, fun kind' => hmoving.kept _ (h.homes kind'), haddressable⟩

/-- The script modules are merged into the scripts. -/
theorem foldModules : ∃ moves disk', (Export.foldModules site).on disk = (.ok moves, disk') := by
  unfold Export.foldModules
  dsimp only
  rw [Edit.on_bind_ok (Edit.on_ask _)]
  cases hfolder : disk.isFolder (modulesFolder site) with
  | false => exact ⟨_, _, rfl⟩
  | true =>
      have hne : modulesHome ≠ [] := by simp [modulesHome]
      rw [modulesFolder_eq] at hfolder
      obtain ⟨hpath, hthere⟩ := (h.tree.isFolder_iff hne isPlain_modulesHome).1 hfolder
      have hlist := h.tree.list_eq hne isPlain_modulesHome hfolder
      rw [← modulesFolder_eq] at hlist
      have hlisted : (Edit.list (modulesFolder site)).on disk = (.ok (disk.children (top ++ modulesHome)), disk) :=
        Edit.on_look hlist
      have hmovable : ∀ file ∈ modules top disk, Movable site top AssetKind.script.home disk file := by
        rintro ⟨k, name⟩ hmem
        obtain ⟨rfl, x, c, hfile⟩ := mem_modules_iff.1 hmem
        have hpath := h.addressable.path modulesHome name x c hfile
        exact ⟨⟨x, c, hfile⟩, hpath, isPath_script (h.tree.isPlain hfile name (by simp)) hpath⟩
      obtain ⟨moves, disk', hmoves, hmoving⟩ := moveAll_completes h.tree (by simp [AssetKind.home])
        (h.homes .script) hmovable (nodup_modules top disk)
      rw [← moduleFiles_eq h.tree hlist, ← AssetKind.destination_eq] at hmoves
      have hremove := hmoving.tree.removeTree_eq hne isPlain_modulesHome hpath (hmoving.kept _ hthere)
      rw [← modulesFolder_eq] at hremove
      rw [if_neg (by simp), Edit.on_bind_ok hlisted, Edit.on_bind_ok hmoves,
        Edit.on_bind_ok (Edit.on_removeTree_eq_ok.2 hremove)]
      exact ⟨_, _, rfl⟩

/-- Moving all assets goes through. -/
theorem reorganize : ∃ moves disk', (Export.reorganize site).on disk = (.ok moves, disk') := by
  obtain ⟨all, disk₁, hall, hready⟩ : ∃ all disk₁,
      (AssetKind.all.mapM (Export.gather site)).on disk = (.ok all, disk₁) ∧ Ready site top disk₁ :=
    Edit.on_mapM_completes (fun _ disk => Ready site top disk) (fun kind _ disk hready => hready.gather kind) h
  obtain ⟨rest, disk', hrest⟩ := hready.foldModules
  refine ⟨(Moves.total all).add rest, disk', ?_⟩
  rw [reorganize_eq, Edit.on_bind_ok hall, Edit.on_bind_ok hrest]
  rfl

end Ready

end SiteScaffold.Export

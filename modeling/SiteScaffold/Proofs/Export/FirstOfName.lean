/-
Files that are moved into a folder one after the other. Of the files of one name the first
one goes there, unless the folder has something of the name (`entrant`); all others stay
where they are. So what stands under a name in the end follows from what stands under it
at first and from the order of the files (`entered`), whatever becomes of other names, and
each file is counted as moved or as skipped (`tally`).

The induction of `moveAll_eq_ok` is on the files that are left. A step may change the disk
and shortens the list, but it changes neither what stands in the end nor who gets there:
`entered` of the old disk with the file is `entered` of the new disk without it.
-/
import Mathlib.Data.List.Nodup
import SiteScaffold.Proofs.Export.Reorganize

namespace SiteScaffold.Export

open Disk (Tree Moved)
open Path (IsPlain under)

variable {disk disk' : Disk} {folder k source top : Key} {site name : Text} {moves : Moves} {e : Entry}
  {file : Key × Text} {files : List (Key × Text)}

-- ================================================================== who gets there

theorem map_find?_eq_some_iff :
    (files.find? (·.2 = name)).map (·.1) = some k ↔ files.find? (·.2 = name) = some (k, name) := by
  rw [Option.map_eq_some_iff]
  constructor
  · intro h
    obtain ⟨⟨j, n⟩, hfind, rfl⟩ := h
    obtain rfl : n = name := by simpa using List.find?_some hfind
    exact hfind
  · exact fun h => ⟨_, h, rfl⟩

/-- There is a first one of a name if there is one. -/
theorem exists_find? (h : (k, name) ∈ files) : ∃ j, files.find? (·.2 = name) = some (j, name) := by
  have hsome : (files.find? (·.2 = name)).isSome := List.find?_isSome.2 ⟨_, h, by simp⟩
  obtain ⟨⟨j, n⟩, hfind⟩ := Option.isSome_iff_exists.1 hsome
  obtain rfl : n = name := by simpa using List.find?_some hfind
  exact ⟨j, hfind⟩

/-- The folder of the file that gets into another folder under a name: of the files given the
first one of the name, unless something in the other folder has the name already. -/
def entrant (top folder : Key) (disk : Disk) (files : List (Key × Text)) (name : Text) : Option Key :=
  if (disk.lookup (top ++ (folder ++ [name]))).isSome then none
  else (files.find? (·.2 = name)).map (·.1)

/-- What stands at a place after files were moved into a folder. -/
def entered (top folder : Key) (disk : Disk) (files : List (Key × Text)) (k : Key) (name : Text) :
    Option Entry :=
  match entrant top folder disk files name with
  | none => disk.lookup (top ++ (k ++ [name]))
  | some source =>
    if k = folder then disk.lookup (top ++ (source ++ [name]))
    else if k = source then none
    else disk.lookup (top ++ (k ++ [name]))

/-- Whether a file gets into the folder. -/
def enters (top folder : Key) (disk : Disk) (files : List (Key × Text)) (file : Key × Text) : Bool :=
  entrant top folder disk files file.2 = some file.1

/-- How many files get there and how many do not. -/
def tally (top folder : Key) (disk : Disk) (files : List (Key × Text)) : Moves :=
  ⟨files.countP (enters top folder disk files), files.countP (!enters top folder disk files ·)⟩

theorem entrant_of_taken (h : disk.lookup (top ++ (folder ++ [name])) = some e) :
    entrant top folder disk files name = none := by
  simp [entrant, h]

theorem entrant_eq_some_iff : entrant top folder disk files name = some source
    ↔ disk.lookup (top ++ (folder ++ [name])) = none
      ∧ files.find? (·.2 = name) = some (source, name) := by
  unfold entrant
  cases hlookup : disk.lookup (top ++ (folder ++ [name])) with
  | some e => simp
  | none => rw [Option.isSome_none, if_neg (by simp), map_find?_eq_some_iff, and_iff_right rfl]

theorem entrant_cons_of_ne (hne : file.2 ≠ name) :
    entrant top folder disk (file :: files) name = entrant top folder disk files name := by
  unfold entrant
  rw [List.find?_cons_of_neg (by simpa using hne)]

theorem entrant_congr
    (h : disk'.lookup (top ++ (folder ++ [name])) = disk.lookup (top ++ (folder ++ [name]))) :
    entrant top folder disk' files name = entrant top folder disk files name := by
  unfold entrant
  rw [h]

theorem entered_of_none (h : entrant top folder disk files name = none) (k : Key) :
    entered top folder disk files k name = disk.lookup (top ++ (k ++ [name])) := by
  simp [entered, h]

theorem entered_of_some (h : entrant top folder disk files name = some source) (k : Key) :
    entered top folder disk files k name
      = if k = folder then disk.lookup (top ++ (source ++ [name]))
        else if k = source then none
        else disk.lookup (top ++ (k ++ [name])) := by
  simp [entered, h]

theorem entered_congr
    (h : ∀ k, disk'.lookup (top ++ (k ++ [name])) = disk.lookup (top ++ (k ++ [name]))) (k : Key) :
    entered top folder disk' files k name = entered top folder disk files k name := by
  unfold entered
  rw [entrant_congr (h folder)]
  simp only [h]

theorem tally_congr (h : ∀ file ∈ files,
      disk'.lookup (top ++ (folder ++ [file.2])) = disk.lookup (top ++ (folder ++ [file.2]))) :
    tally top folder disk' files = tally top folder disk files := by
  have henters : ∀ file ∈ files, enters top folder disk' files file = enters top folder disk files file := by
    intro file hmem
    unfold enters
    rw [entrant_congr (h file hmem)]
  unfold tally
  congr 1
  · exact List.countP_congr fun file hmem => by rw [henters file hmem]
  · exact List.countP_congr fun file hmem => by rw [henters file hmem]

-- ======================================================================== one step

/-- A file that finds its name taken changes nothing for those after it. -/
theorem entrant_cons_of_taken (h : disk.lookup (top ++ (folder ++ [file.2])) = some e) (name : Text) :
    entrant top folder disk (file :: files) name = entrant top folder disk files name := by
  by_cases hname : file.2 = name
  · rw [hname] at h
    rw [entrant_of_taken h, entrant_of_taken h]
  · exact entrant_cons_of_ne hname

/-- Where a file was moved, its name is taken, and all other names are as before. -/
theorem entrant_of_moved
    (h : Moved (top ++ (file.1 ++ [file.2])) (top ++ (folder ++ [file.2])) disk disk') (name : Text) :
    entrant top folder disk' files name
      = if file.2 = name then none else entrant top folder disk (file :: files) name := by
  by_cases hname : file.2 = name
  · obtain ⟨x, c, -, htarget⟩ := h.file
    rw [hname] at htarget
    rw [if_pos hname, entrant_of_taken htarget]
  · rw [if_neg hname, entrant_cons_of_ne hname]
    refine entrant_congr (h.same _ ?_ ?_) <;> simp [Ne.symm hname]

theorem entered_of_moved
    (h : Moved (top ++ (file.1 ++ [file.2])) (top ++ (folder ++ [file.2])) disk disk') (k : Key) (name : Text) :
    entered top folder disk' files k name = entered top folder disk (file :: files) k name := by
  by_cases hname : file.2 = name
  · subst hname
    have hfirst : entrant top folder disk (file :: files) file.2 = some file.1 :=
      entrant_eq_some_iff.2 ⟨h.free, List.find?_cons_of_pos (by simp)⟩
    obtain ⟨x, c, hsource, htarget⟩ := h.file
    rw [entered_of_none (by rw [entrant_of_moved h, if_pos rfl]), entered_of_some hfirst]
    by_cases hk : k = folder
    · rw [if_pos hk, hk, htarget, hsource]
    · rw [if_neg hk]
      by_cases hk' : k = file.1
      · rw [if_pos hk', hk', h.gone]
      · rw [if_neg hk']
        exact h.same _ (by simpa using hk') (by simpa using hk)
  · have hsame : ∀ k, disk'.lookup (top ++ (k ++ [name])) = disk.lookup (top ++ (k ++ [name])) := by
      intro k
      refine h.same _ ?_ ?_ <;> simp [Ne.symm hname]
    rw [entered_congr hsame]
    unfold entered
    rw [entrant_cons_of_ne hname]

/-- A file that finds its name taken is skipped. -/
theorem tally_of_taken (h : disk.lookup (top ++ (folder ++ [file.2])) = some e) :
    tally top folder disk (file :: files) = (⟨0, 1⟩ : Moves).add (tally top folder disk files) := by
  have henters : enters top folder disk (file :: files) = enters top folder disk files := by
    funext file'
    unfold enters
    rw [entrant_cons_of_taken h]
  have hfile : enters top folder disk files file = false := by
    simp [enters, entrant_of_taken h]
  simp [tally, henters, hfile, Moves.add, Nat.add_comm]

/-- One that is moved is not met again. -/
theorem tally_of_moved
    (h : Moved (top ++ (file.1 ++ [file.2])) (top ++ (folder ++ [file.2])) disk disk') (hnot : file ∉ files) :
    tally top folder disk (file :: files) = (⟨1, 0⟩ : Moves).add (tally top folder disk' files) := by
  have hfirst : entrant top folder disk (file :: files) file.2 = some file.1 :=
    entrant_eq_some_iff.2 ⟨h.free, List.find?_cons_of_pos (by simp)⟩
  have henters : ∀ file' ∈ files,
      enters top folder disk (file :: files) file' = enters top folder disk' files file' := by
    intro file' hmem
    unfold enters
    rw [entrant_of_moved h]
    by_cases hname : file.2 = file'.2
    · rw [if_pos hname, ← hname, hfirst]
      have hne : file.1 ≠ file'.1 := fun heq => hnot (by rwa [Prod.ext heq hname])
      simp [hne]
    · rw [if_neg hname]
  have hmoved : files.countP (enters top folder disk (file :: files))
      = files.countP (enters top folder disk' files) :=
    List.countP_congr fun file' hmem => by rw [henters file' hmem]
  have hskipped : files.countP (!enters top folder disk (file :: files) ·)
      = files.countP (!enters top folder disk' files ·) :=
    List.countP_congr fun file' hmem => by rw [henters file' hmem]
  have hfile : enters top folder disk (file :: files) file = true := by
    simp [enters, hfirst]
  simp [tally, hmoved, hskipped, hfile, Moves.add, Nat.add_comm]

-- ======================================================================= all files

theorem moveAll_cons {folder path : Text} {paths : List Text}
    (h : (moveAll folder (path :: paths)).on disk = (.ok moves, disk')) :
    ∃ first disk₁ rest, (moveInto folder path).on disk = (.ok first, disk₁)
      ∧ (moveAll folder paths).on disk₁ = (.ok rest, disk') ∧ moves = first.add rest := by
  obtain ⟨all, disk₂, hall, hanswer⟩ := Edit.on_bind_eq_ok.1 h
  cases hanswer
  obtain ⟨first, disk₁, rest, hfirst, hrest, rfl⟩ := Edit.on_mapM_cons hall
  refine ⟨first, disk₁, Moves.total rest, hfirst, ?_, Moves.total_cons first rest⟩
  unfold moveAll
  rw [Edit.on_bind_ok hrest]
  rfl

/-- What moving files into a folder comes to. -/
theorem moveAll_eq_ok (tree : Tree site top disk) (hfolder : ∀ n ∈ folder, IsPlain n) (hne : folder ≠ [])
    (hfiles : ∀ file ∈ files, (∀ n ∈ file.1 ++ [file.2], IsPlain n)
      ∧ disk.lookup (top ++ (file.1 ++ [file.2])) ≠ some .folder) (hnodup : files.Nodup)
    (h : (moveAll (under site folder) (files.map fun file => under site (file.1 ++ [file.2]))).on disk
      = (.ok moves, disk')) :
    Tree site top disk' ∧ moves = tally top folder disk files
      ∧ ∀ k name, disk'.lookup (top ++ (k ++ [name])) = entered top folder disk files k name := by
  induction files generalizing disk moves with
  | nil =>
      cases h
      exact ⟨tree, rfl, fun k name => (entered_of_none (by simp [entrant]) k).symm⟩
  | cons file files ih =>
      obtain ⟨first, disk₁, rest, hfirst, hrest, rfl⟩ := moveAll_cons h
      obtain ⟨hnot, hnodup⟩ := List.nodup_cons.1 hnodup
      obtain ⟨hnames, hsource⟩ := hfiles file (List.mem_cons_self ..)
      rcases moveInto_cases tree hnames hfolder hne hsource hfirst with
        ⟨hholds, rfl, rfl⟩ | ⟨rfl, -, tree₁, hmoved⟩
      · have hplain := Path.isPlain_concat hfolder (hnames file.2 (by simp))
        obtain ⟨-, e, htaken⟩ := (tree.holds_iff (by simp) hplain).1 hholds
        obtain ⟨tree', rfl, hlookup⟩ :=
          ih tree (fun file' hmem => hfiles file' (List.mem_cons_of_mem _ hmem)) hnodup hrest
        refine ⟨tree', (tally_of_taken htaken).symm, fun k name => ?_⟩
        rw [hlookup]
        unfold entered
        rw [entrant_cons_of_taken htaken]
      · have hfiles₁ : ∀ file' ∈ files, (∀ n ∈ file'.1 ++ [file'.2], IsPlain n)
            ∧ disk₁.lookup (top ++ (file'.1 ++ [file'.2])) ≠ some .folder := by
          intro file' hmem
          obtain ⟨hnames', hsource'⟩ := hfiles file' (List.mem_cons_of_mem _ hmem)
          exact ⟨hnames', fun hlookup => hsource' (hmoved.folder hlookup)⟩
        obtain ⟨tree', rfl, hlookup⟩ := ih tree₁ hfiles₁ hnodup hrest
        refine ⟨tree', (tally_of_moved hmoved hnot).symm, fun k name => ?_⟩
        rw [hlookup, entered_of_moved hmoved]

-- ============================================================== where the files get

/-- Where the files get that are moved into a folder. -/
def landings (top folder : Key) (disk : Disk) (files : List (Key × Text)) : List (Key × Text) :=
  (files.filter (enters top folder disk files)).map fun file => (folder, file.2)

theorem enters_iff : enters top folder disk files file = true
    ↔ disk.lookup (top ++ (folder ++ [file.2])) = none ∧ files.find? (·.2 = file.2) = some file := by
  unfold enters
  rw [decide_eq_true_eq, entrant_eq_some_iff]

theorem length_landings : (landings top folder disk files).length = (tally top folder disk files).moved := by
  rw [landings, List.length_map, ← List.countP_eq_length_filter]
  rfl

theorem mem_landings_iff : (k, name) ∈ landings top folder disk files
    ↔ k = folder ∧ ∃ source, entrant top folder disk files name = some source := by
  unfold landings
  rw [List.mem_map]
  constructor
  · rintro ⟨file, hmem, heq⟩
    cases heq
    exact ⟨rfl, _, of_decide_eq_true (List.mem_filter.1 hmem).2⟩
  · rintro ⟨rfl, source, hentrant⟩
    obtain ⟨-, hfind⟩ := entrant_eq_some_iff.1 hentrant
    exact ⟨(source, name), List.mem_filter.2 ⟨List.mem_of_find?_eq_some hfind, decide_eq_true hentrant⟩, rfl⟩

/-- No two of them have one name. -/
theorem nodup_landings (hnodup : files.Nodup) : (landings top folder disk files).Nodup := by
  refine (hnodup.filter _).map_on fun a ha b hb heq => ?_
  obtain ⟨-, hfirst⟩ := enters_iff.1 (List.mem_filter.1 ha).2
  obtain ⟨-, hfirst'⟩ := enters_iff.1 (List.mem_filter.1 hb).2
  have hname : a.2 = b.2 := (Prod.mk.inj heq).2
  rw [hname, hfirst'] at hfirst
  exact (Option.some.inj hfirst).symm

end SiteScaffold.Export

/-
The skeleton of a project in a tree. Writing it puts its files at their places, makes the folders
above them, and leaves everything else (`Overlaid`, `placeAll_overlays`); before that, what a lean
project does without is taken away, each entry with all below it, and nothing else (`Thinned`,
`trim_thins`). Both are told for one file or entry first, and carried along a list of them
(`Overlaid.cons`, `Thinned.cons`).

A file that goes right into the folder of the project has that folder above it, however the way
there is written, and no folder is made for it (`Tree.makeFolders_parent`).
-/
import SiteScaffold.Proofs.Blueprint
import SiteScaffold.Proofs.Disk.Shifted

namespace SiteScaffold.Blueprint

open Disk (Furnished HoldsText IsPath IsStep Tree)
open Path (IsPlain under)

variable {base content entry : Text} {top k : Key} {disk disk' disk₁ : Disk} {file : Key × Text}
  {files : List (Key × Text)} {entries : List Text}

-- ===================================================================== files come

/-- Whether a tree came from another by writing text files at places in it, with the folders
above them. -/
structure Overlaid (base : Text) (top : Key) (files : List (Key × Text)) (disk disk' : Disk) : Prop where
  tree : Tree base top disk'
  placed : ∀ file ∈ files, disk'.HoldsText (under base file.1) (top ++ file.1) file.2
  kept : ∀ j e, (∀ file ∈ files, j ≠ top ++ file.1) → disk.lookup j = some e → disk'.lookup j = some e
  new : ∀ j e, (∀ file ∈ files, j ≠ top ++ file.1) → disk'.lookup j = some e →
    disk.lookup j = some e ∨ e = .folder ∧ ∃ file ∈ files, j <+: top ++ file.1

/-- One file more, which is written first and not written over. -/
theorem Overlaid.cons (hk : file.1 ≠ []) (hplain : ∀ n ∈ file.1, IsPlain n)
    (hother : ∀ other ∈ files, file.1 ≠ other.1) (hfirst : Overlaid base top [file] disk disk₁)
    (hrest : Overlaid base top files disk₁ disk') : Overlaid base top (file :: files) disk disk' where
  tree := hrest.tree
  placed := by
    intro other hmem
    rcases List.mem_cons.1 hmem with rfl | hmem
    · obtain ⟨hpath, -, x, hlookup⟩ := (hfirst.tree.holdsText_iff hk hplain).1 (hfirst.placed other (by simp))
      have hoff : ∀ another ∈ files, top ++ other.1 ≠ top ++ another.1 := fun another hanother heq =>
        hother another hanother (List.append_cancel_left heq)
      exact (hrest.tree.holdsText_iff hk hplain).2 ⟨hpath, rfl, x, hrest.kept _ _ hoff hlookup⟩
    · exact hrest.placed other hmem
  kept := by
    intro j e hoff hlookup
    rw [List.forall_mem_cons] at hoff
    exact hrest.kept j e hoff.2 (hfirst.kept j e (by simpa using hoff.1) hlookup)
  new := by
    intro j e hoff hlookup
    rw [List.forall_mem_cons] at hoff
    rcases hrest.new j e hoff.2 hlookup with hlookup | ⟨rfl, other, hother, hpre⟩
    · rcases hfirst.new j e (by simpa using hoff.1) hlookup with hlookup | ⟨rfl, other, hother, hpre⟩
      · exact .inl hlookup
      · obtain rfl := List.mem_singleton.1 hother
        exact .inr ⟨rfl, other, List.mem_cons_self, hpre⟩
    · exact .inr ⟨rfl, other, List.mem_cons_of_mem _ hother, hpre⟩

/-- Making the folder above a file makes folders on the way to it, if any. -/
theorem makeParent_furnishes (tree : Tree base top disk) (hk : k ≠ []) (hnames : ∀ n ∈ k, IsStep n ∧ '/' ∉ n)
    {parent : Text} (hparent : Path.parent? (under base k) = some parent)
    (h : disk.makeFolders parent = (.ok (), disk')) :
    Furnished (fun j => j <+: top ++ k) disk disk' ∧ Tree base top disk' := by
  have hplain := Disk.isPlain_of_steps hnames
  obtain ⟨front, name, rfl⟩ := List.eq_nil_or_concat' k |>.resolve_left hk
  by_cases hfront : front = []
  · subst hfront
    rw [tree.makeFolders_parent (hplain name (by simp)) hparent h]
    exact ⟨.refl _ disk, tree⟩
  · rw [Path.parent?_under_concat hfront hplain] at hparent
    obtain rfl := Option.some.inj hparent
    have hmade : Furnished (fun j => j <+: top ++ (front ++ [name])) disk disk' ∧ Tree base top disk'
        ∧ disk'.isFolder (under base front) :=
      tree.makeFolders hfront (fun n hn => hnames n (List.mem_append_left _ hn))
        (fun way _ hway => (List.prefix_append_right_inj top).2 (hway.trans (List.prefix_append front [name]))) h
    exact ⟨hmade.1, hmade.2.1⟩

/-- A file is placed by making the folders on the way to it, if any, and writing it. -/
theorem place_stages (tree : Tree base top disk) (hk : k ≠ []) (hnames : ∀ n ∈ k, IsStep n ∧ '/' ∉ n)
    (h : (place (under base k) content).on disk = (.ok (), disk')) :
    ∃ grown, Furnished (fun j => j <+: top ++ k) disk grown ∧ Tree base top grown
      ∧ grown.write (under base k) (.text content) = .ok disk' := by
  unfold place at h
  cases hparent : Path.parent? (under base k) with
  | none =>
      rw [hparent] at h
      exact ⟨disk, .refl _ disk, tree, Edit.on_change_eq_ok.1 h⟩
  | some parent =>
      rw [hparent] at h
      obtain ⟨⟨⟩, grown, hmake, hwrite⟩ := Edit.on_bind_eq_ok.1 h
      obtain ⟨hfurnished, htree⟩ := makeParent_furnishes tree hk hnames hparent (Edit.on_makeFolders_eq_ok.1 hmake)
      exact ⟨grown, hfurnished, htree, Edit.on_change_eq_ok.1 hwrite⟩

/-- A file is written to its place, whatever file was there. -/
theorem place_overlays (tree : Tree base top disk) (hk : k ≠ []) (hnames : ∀ n ∈ k, IsStep n ∧ '/' ∉ n)
    (h : (place (under base k) content).on disk = (.ok (), disk')) : Overlaid base top [(k, content)] disk disk' := by
  have hplain := Disk.isPlain_of_steps hnames
  obtain ⟨grown, hfurnished, htree, hwrite⟩ := place_stages tree hk hnames h
  obtain ⟨front, name, rfl⟩ := List.eq_nil_or_concat' k |>.resolve_left hk
  obtain ⟨hpath, -, hchange, htree', hlookup⟩ := htree.write hplain hwrite
  refine ⟨htree', fun file hfile => ?_, fun j e hoff hbefore => ?_, fun j e hoff hafter => ?_⟩
  · obtain rfl := List.mem_singleton.1 hfile
    exact (htree'.holdsText_iff hk hplain).2 ⟨hpath, rfl, _, hlookup⟩
  · rw [hchange.same j (hoff (_, content) (by simp))]
    exact hfurnished.kept j e hbefore
  · rw [hchange.same j (hoff (_, content) (by simp))] at hafter
    rcases hfurnished.new j e hafter with hbefore | ⟨hfolder, hpre⟩
    · exact .inl hbefore
    · exact .inr ⟨hfolder, (_, content), by simp, hpre⟩

/-- Files by the names that lead to them. -/
def placesOf (files : List (Text × Text)) : List (Key × Text) :=
  files.map fun file => (Path.segments file.1, file.2)

/-- Files are written to their places, one after the other. -/
theorem placeAll_overlays {files : List (Text × Text)} {written : List Text} (tree : Tree base top disk)
    (hnames : ∀ file ∈ files, ∀ n ∈ Path.segments file.1, IsStep n) (hdistinct : (files.map (·.1)).Nodup)
    (h : (placeAll base files).on disk = (.ok written, disk')) : Overlaid base top (placesOf files) disk disk' := by
  unfold placeAll at h
  induction files generalizing disk written with
  | nil =>
      cases h
      exact ⟨tree, by simp [placesOf], fun j e _ hlookup => hlookup, fun j e _ hlookup => .inl hlookup⟩
  | cons file files ih =>
      obtain ⟨path, content⟩ := file
      obtain ⟨first, disk₁, rest, hfirst, hrest, -⟩ := Edit.on_mapM_cons h
      obtain ⟨⟨⟩, disk₂, hplace, hanswer⟩ := Edit.on_bind_eq_ok.1 hfirst
      cases hanswer
      obtain ⟨hpath, hnames⟩ := List.forall_mem_cons.1 hnames
      obtain ⟨hfresh, hdistinct⟩ := List.nodup_cons.1 hdistinct
      have hsteps : ∀ n ∈ Path.segments path, IsStep n ∧ '/' ∉ n := fun n hn =>
        ⟨hpath n hn, Text.notMem_of_mem_split hn⟩
      have hk : Path.segments path ≠ [] := Path.segments_ne_nil path
      rw [← Path.under_segments] at hplace
      have hoverlaid := place_overlays tree hk hsteps hplace
      refine .cons hk (fun n hn => ⟨(hsteps n hn).1.isName, (hsteps n hn).2⟩) (fun other hother heq => ?_) hoverlaid
        (ih hoverlaid.tree hnames hdistinct hrest)
      obtain ⟨another, hanother, rfl⟩ := List.mem_map.1 hother
      exact hfresh (List.mem_map.2 ⟨another, hanother, (Path.segments_inj heq).symm⟩)

-- ====================================================================== entries go

/-- Whether a tree came from another by taking away what stands at some paths, each with all
below it. An entry stays if the system does not take its path. -/
structure Thinned (base : Text) (top : Key) (entries : List Text) (disk disk' : Disk) : Prop where
  tree : Tree base top disk'
  gone : ∀ entry ∈ entries, IsPath (Path.join base entry) → disk'.lookup (top ++ Path.segments entry) = none
  kept : ∀ j, (∀ entry ∈ entries, ¬ top ++ Path.segments entry <+: j) → disk'.lookup j = disk.lookup j
  fewer : ∀ j e, disk'.lookup j = some e → disk.lookup j = some e

theorem Thinned.cons (hfirst : Thinned base top [entry] disk disk₁) (hrest : Thinned base top entries disk₁ disk') :
    Thinned base top (entry :: entries) disk disk' where
  tree := hrest.tree
  gone := by
    intro other hmem hpath
    rcases List.mem_cons.1 hmem with rfl | hmem
    · have hgone := hfirst.gone other (by simp) hpath
      refine Option.eq_none_iff_forall_ne_some.2 fun e he => ?_
      rw [hrest.fewer _ _ he] at hgone
      cases hgone
    · exact hrest.gone other hmem hpath
  kept := by
    intro j hoff
    rw [List.forall_mem_cons] at hoff
    rw [hrest.kept j hoff.2, hfirst.kept j (by simpa using hoff.1)]
  fewer := fun j e hlookup => hfirst.fewer j e (hrest.fewer j e hlookup)

/-- Taking away an entry takes away all that is at and below its place. -/
theorem erase_thins (tree : Tree base top disk) (entry : Text) :
    Thinned base top [entry] disk (disk.erase (top ++ Path.segments entry)) := by
  have hk : Path.segments entry ≠ [] := Path.segments_ne_nil entry
  have hlookup : ∀ j, (disk.erase (top ++ Path.segments entry)).lookup j
      = if top ++ Path.segments entry <+: j then none else disk.lookup j := fun j =>
    Disk.lookup_erase (by simp [hk])
  refine ⟨tree.erased hk, fun other hother _ => ?_, fun j hoff => ?_, fun j e he => ?_⟩
  · rw [List.mem_singleton.1 hother, hlookup, if_pos (List.prefix_refl _)]
  · rw [hlookup, if_neg (hoff entry (by simp))]
  · rw [hlookup] at he
    split at he
    · cases he
    · exact he

/-- A path that nothing stands at has nothing to take away. -/
theorem spared_thins (tree : Tree base top disk) (hplain : ∀ n ∈ Path.segments entry, IsPlain n)
    (hholds : disk.holds (Path.join base entry) = false) : Thinned base top [entry] disk disk := by
  refine ⟨tree, fun other hother hpath => ?_, fun j _ => rfl, fun j e he => he⟩
  have hk : Path.segments entry ≠ [] := Path.segments_ne_nil entry
  rw [List.mem_singleton.1 hother] at hpath ⊢
  rw [← Path.under_segments] at hpath hholds
  refine Option.eq_none_iff_forall_ne_some.2 fun e he => ?_
  rw [(tree.holds_iff hk hplain).2 ⟨hpath, e, he⟩] at hholds
  cases hholds

/-- Removing a file of a tree takes it from its place. -/
theorem erased_of_removeFile (tree : Tree base top disk) (hk : k ≠ []) (hplain : ∀ n ∈ k, IsPlain n)
    (hholds : disk.holds (under base k) = true) (h : disk.removeFile (under base k) = .ok disk') :
    disk' = disk.erase (top ++ k) := by
  obtain ⟨hpath, e, hthere⟩ := (tree.holds_iff hk hplain).1 hholds
  obtain ⟨front, name, rfl⟩ := List.eq_nil_or_concat' k |>.resolve_left hk
  have hsegments : Path.segments (under base (front ++ [name])) = (Path.lead base ++ front) ++ [name] := by
    rw [Path.segments_under hk hplain, List.append_assoc]
  have hname : Path.IsName name := (hplain name (by simp)).toIsName
  rw [Disk.removeFile_of_locate hsegments hname ((tree.locate_entry hk hplain).2 ⟨hpath, rfl, hthere⟩)] at h
  split at h
  · cases h
  · exact (Except.ok.inj h).symm

/-- What stands at a path is taken away, if anything does. -/
theorem clear_thins {removed : Bool} (tree : Tree base top disk) (hplain : ∀ n ∈ Path.segments entry, IsPlain n)
    (h : (clear base entry).on disk = (.ok removed, disk')) : Thinned base top [entry] disk disk' := by
  have hk : Path.segments entry ≠ [] := Path.segments_ne_nil entry
  have hjoin : Path.join base entry = under base (Path.segments entry) := (Path.under_segments base entry).symm
  unfold clear at h
  rw [Edit.on_bind_ok (Edit.on_ask _)] at h
  cases hfolder : disk.isFolder (Path.join base entry) with
  | true =>
      rw [hfolder] at h
      obtain ⟨⟨⟩, disk₁, hremove, hanswer⟩ := Edit.on_bind_eq_ok.1 h
      cases hanswer
      rw [hjoin] at hfolder hremove
      obtain ⟨hpath, hthere⟩ := (tree.isFolder_iff hk hplain).1 hfolder
      have hremove := Edit.on_removeTree_eq_ok.1 hremove
      rw [tree.removeTree_eq hk hplain hpath hthere] at hremove
      cases hremove
      exact erase_thins tree entry
  | false =>
      rw [hfolder, if_neg Bool.false_ne_true, Edit.on_bind_ok (Edit.on_ask _)] at h
      cases hholds : disk.holds (Path.join base entry) with
      | true =>
          rw [hholds, if_pos rfl] at h
          obtain ⟨⟨⟩, disk₁, hremove, hanswer⟩ := Edit.on_bind_eq_ok.1 h
          cases hanswer
          rw [hjoin] at hholds hremove
          obtain rfl := erased_of_removeFile tree hk hplain hholds (Edit.on_change_eq_ok.1 hremove)
          exact erase_thins tree entry
      | false =>
          rw [hholds] at h
          cases h
          exact spared_thins tree hplain hholds

theorem clearAll_thins {acc removed : List Text} (tree : Tree base top disk)
    (hnames : ∀ entry ∈ entries, ∀ n ∈ Path.segments entry, IsPlain n)
    (h : (entries.filterAuxM (clear base ·) acc).on disk = (.ok removed, disk')) :
    Thinned base top entries disk disk' := by
  induction entries generalizing disk acc with
  | nil =>
      cases h
      exact ⟨tree, by simp, fun j _ => rfl, fun j e he => he⟩
  | cons entry entries ih =>
      have hcons : (clear base entry >>= fun removed =>
          entries.filterAuxM (clear base ·) (cond removed (entry :: acc) acc)).on disk = _ := h
      obtain ⟨removed, disk₁, hfirst, hrest⟩ := Edit.on_bind_eq_ok.1 hcons
      obtain ⟨hentry, hnames⟩ := List.forall_mem_cons.1 hnames
      have hthinned := clear_thins tree hentry hfirst
      exact .cons hthinned (ih hthinned.tree hnames hrest)

-- ===================================================================== the skeleton

theorem apply_overlays {written : List Text} (tree : Tree base top disk)
    (h : (apply base).on disk = (.ok written, disk')) : Overlaid base top (placesOf Blueprint.files) disk disk' :=
  placeAll_overlays tree (by decide +kernel) (by decide +kernel) h

theorem trim_thins {removed : List Text} (tree : Tree base top disk)
    (h : (trim base).on disk = (.ok removed, disk')) : Thinned base top dispensable disk disk' := by
  have hnames : ∀ entry ∈ dispensable, ∀ n ∈ Path.segments entry, IsStep n := by decide +kernel
  obtain ⟨found, disk₁, hclear, hanswer⟩ := Edit.on_bind_eq_ok.1 h
  cases hanswer
  exact clearAll_thins tree
    (fun entry hentry n hn => ⟨(hnames entry hentry n hn).isName, Text.notMem_of_mem_split hn⟩) hclear

end SiteScaffold.Blueprint

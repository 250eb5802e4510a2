/-
Files that are written more than once. Where a file can be written (`Takes`), another one can
be written after it, in the same mode, and what is left of the first is nothing (`insert_insert`).
-/
import SiteScaffold.Proofs.Disk.Covers
import SiteScaffold.Proofs.Disk.Tree

namespace SiteScaffold.Disk

variable {disk : Disk} {k : Key} {e e' : Entry} {path : Text} {x : Bool} {c c' : Content}

theorem insertSorted_insertSorted (l : List (Key × Entry)) :
    insertSorted k e' (insertSorted k e l) = insertSorted k e' l := by
  induction l with
  | nil => simp [insertSorted]
  | cons head rest ih =>
      obtain ⟨j, f⟩ := head
      by_cases heq : k = j
      · simp [insertSorted, heq]
      · by_cases hless : Key.less k j
        · simp [insertSorted, heq, hless]
        · simp [insertSorted, heq, hless, ih]

/-- An entry takes the place of the one that was put there before. -/
theorem insert_insert (disk : Disk) (k : Key) (e e' : Entry) :
    (disk.insert k e).insert k e' = disk.insert k e' := by
  simp only [insert, insertSorted_insertSorted]

/-- The mode of a file that is written at a place: the one of the file that it takes the place
of. -/
def modeAt (disk : Disk) (k : Key) : Bool :=
  match disk.lookup k with
  | some (.file executable _) => executable
  | _ => false

theorem modeAt_insert (hk : k ≠ []) (x : Bool) (c : Content) : (disk.insert k (.file x c)).modeAt k = x := by
  rw [modeAt, lookup_insert hk, if_pos rfl]

/-- Whether a path leads to a place where a file can be written: to a file, or to nothing. -/
structure Takes (disk : Disk) (path : Text) (k : Key) : Prop where
  locate : disk.locate true path = .ok (disk.place k)
  leaf : disk.IsLeaf k

namespace Takes

theorem ne_nil (h : disk.Takes path k) : k ≠ [] := by
  rintro rfl
  cases h.leaf _ (lookup_nil disk)

theorem write (h : disk.Takes path k) (c : Content) :
    disk.write path c = .ok (disk.insert k (.file (disk.modeAt k) c)) := by
  unfold Disk.write modeAt
  rw [h.locate]
  cases hlookup : disk.lookup k with
  | none =>
      rw [place_of_none hlookup]
      rfl
  | some e =>
      have hfile := h.leaf e hlookup
      rw [place_of_some hlookup]
      cases e with
      | file x c => rfl
      | folder | link target => cases hfile

/-- What is written changes the disk at that place only. -/
theorem change (h : disk.Takes path k) (hclosed : disk.Closed) (x : Bool) (c : Content) :
    Change k disk (disk.insert k (.file x c)) := by
  have hthere : (disk.insert k (.file x c)).lookup k = some (.file x c) := by
    rw [lookup_insert h.ne_nil, if_pos rfl]
  cases hlookup : disk.lookup k with
  | none =>
      have hlocate := h.locate
      rw [place_of_none hlookup] at hlocate
      obtain ⟨there, name, rfl, hfolder⟩ :=
        (locate_eq_ok_iff.1 hlocate).2.folder_above_free hclosed (lookup_nil disk)
      exact .of_insert hclosed hfolder hlookup
  | some e =>
      have hfile := h.leaf e hlookup
      cases e with
      | file x' c' => exact .of_file hclosed h.ne_nil (agreeBut_insert h.ne_nil) hlookup hthere
      | folder | link target => cases hfile

/-- A file can be written there again. -/
theorem insert (h : disk.Takes path k) (x : Bool) (c : Content) : (disk.insert k (.file x c)).Takes path k := by
  have hleaf : (disk.insert k (.file x c)).IsLeaf k :=
    isLeaf_of_file (by rw [lookup_insert h.ne_nil, if_pos rfl])
  exact ⟨locate_at h.ne_nil (agreeBut_insert h.ne_nil).agreeOff h.leaf hleaf h.locate, hleaf⟩

theorem write_insert (h : disk.Takes path k) (x : Bool) (c c' : Content) :
    (disk.insert k (.file x c)).write path c' = .ok (disk.insert k (.file x c')) := by
  rw [(h.insert x c).write, modeAt_insert h.ne_nil, insert_insert]

end Takes

/-- What is written in a tree is written to the place that its names lead to, and leaves a
tree. -/
theorem Tree.write {disk' : Disk} {base name : Text} {top : Key} (tree : Tree base top disk)
    (hnames : ∀ n ∈ k ++ [name], Path.IsPlain n) (h : disk.write (Path.under base (k ++ [name])) c = .ok disk') :
    IsPath (Path.under base (k ++ [name])) ∧ IsStep name ∧ Change (top ++ (k ++ [name])) disk disk'
      ∧ Tree base top disk'
      ∧ disk'.lookup (top ++ (k ++ [name])) = some (.file (disk.modeAt (top ++ (k ++ [name]))) c) := by
  obtain ⟨j, x, hlocate, -, -, hbefore⟩ := write_eq_ok h
  obtain ⟨hpath, hstep, -, hplace⟩ := (tree.locate hnames).1 hlocate
  have hj : j = top ++ (k ++ [name]) := by
    rw [← key_place disk j, hplace, key_place]
  have htakes : disk.Takes (Path.under base (k ++ [name])) (top ++ (k ++ [name])) := by
    rw [hj] at hlocate hbefore
    refine ⟨hlocate, ?_⟩
    rcases hbefore with hnone | ⟨c', hfile⟩
    · intro e he
      rw [hnone] at he
      cases he
    · exact isLeaf_of_file hfile
  rw [htakes.write] at h
  obtain rfl := Except.ok.inj h
  have hchange := htakes.change tree.closed (disk.modeAt (top ++ (k ++ [name]))) c
  refine ⟨hpath, hstep, hchange, tree.change hchange fun i n e _ heq => ?_, ?_⟩
  · obtain ⟨-, hn⟩ := List.append_inj' (List.append_cancel_left heq) rfl
    obtain rfl := List.singleton_inj.1 hn
    exact ⟨hstep, (hnames name (by simp)).slash⟩
  · rw [lookup_insert htakes.ne_nil, if_pos rfl]

end SiteScaffold.Disk

/-
Disks that grow and change. On a disk every entry stands in a folder (`Closed`), and
stays there when an entry is put into a folder (`Closed.insert`) or taken out of one
(`Closed.erase`). Making folders adds folders under the names that were asked for and
nothing else (`Grown`, `grown_makeFolders`). All other work on the disk comes down to
changes at one place, where a file or nothing stands before and after (`Change`).
-/
import SiteScaffold.Proofs.Disk.Way

namespace SiteScaffold.Disk

open Path (IsName)

variable {disk disk' disk'' : Disk} {j k here there : Key} {e : Entry} {follow : Bool}
  {links left : Nat} {steps names : List Text} {name path : Text} {r : Located}

-- ============================================================ entries in folders

theorem lookup_filter {l : List (Key × Entry)} (keep : Key → Bool) :
    (l.filter (keep ·.1)).lookup j = if keep j then l.lookup j else none := by
  induction l with
  | nil => simp
  | cons head l ih =>
      obtain ⟨k, e⟩ := head
      by_cases hkeep : keep k
      · rw [List.filter_cons, if_pos hkeep, lookup_cons, lookup_cons, ih]
        by_cases hj : j = k
        · rw [if_pos hj, if_pos hj, hj, if_pos hkeep]
        · rw [if_neg hj, if_neg hj]
      · rw [List.filter_cons, if_neg hkeep, ih, lookup_cons]
        by_cases hj : j = k
        · rw [hj, if_neg hkeep, if_neg hkeep]
        · rw [if_neg hj]

/-- What stood at a place and below it is gone, and all else stands where it stood. -/
theorem lookup_erase (hk : k ≠ []) :
    (disk.erase k).lookup j = if k <+: j then none else disk.lookup j := by
  unfold lookup
  by_cases hj : j = []
  · rw [if_pos hj, if_pos hj, hj, if_neg (by rwa [List.prefix_nil])]
  · rw [if_neg hj, if_neg hj]
    show (disk.entries.filter _).lookup j = _
    rw [lookup_filter (fun k' => !k.within k')]
    by_cases hpre : k <+: j
    · have hwithin : k.within j = true := List.isPrefixOf_iff_prefix.2 hpre
      rw [hwithin, if_pos hpre]
      rfl
    · have hwithin : k.within j = false := by
        rw [Bool.eq_false_iff]
        exact fun h => hpre (List.isPrefixOf_iff_prefix.1 h)
      rw [hwithin, if_neg hpre]
      rfl

/-- Whether every entry stands in a folder. -/
def Closed (disk : Disk) : Prop :=
  ∀ k name e, disk.lookup (k ++ [name]) = some e → disk.lookup k = some .folder

theorem mem_of_lookup {l : List (Key × Entry)} (h : l.lookup k = some e) : (k, e) ∈ l := by
  obtain ⟨front, back, rfl, -⟩ := List.lookup_eq_some_iff.1 h
  simp

/-- A disk on which every entry that is listed stands in a folder. -/
theorem closed_of_forall_mem
    (h : ∀ entry ∈ disk.entries, disk.lookup entry.1.dropLast = some .folder) : disk.Closed := by
  intro k name e hlookup
  unfold lookup at hlookup
  rw [if_neg (by simp)] at hlookup
  have hfolder := h _ (mem_of_lookup hlookup)
  rwa [List.dropLast_concat] at hfolder

/-- Below a place that is no folder there is nothing. -/
theorem Closed.below (h : disk.Closed) (hk : disk.lookup k ≠ some .folder) (hj : k <+: j)
    (hne : j ≠ k) : disk.lookup j = none := by
  obtain ⟨t, rfl⟩ := hj
  -- on the names below, the last one first
  induction ht : t.length generalizing t with
  | zero =>
      obtain rfl := List.length_eq_zero_iff.1 ht
      simp at hne
  | succ n ih =>
      obtain ⟨s, x, rfl⟩ := List.eq_nil_or_concat' t |>.resolve_left (by rintro rfl; cases ht)
      cases hlookup : disk.lookup (k ++ (s ++ [x])) with
      | none => rfl
      | some e =>
          rw [← List.append_assoc] at hlookup
          have hfolder := h _ _ _ hlookup
          by_cases hs : s = []
          · rw [hs, List.append_nil] at hfolder
            exact absurd hfolder hk
          · have hnone := ih s (by simpa using hs) (by simpa using ht)
            rw [hnone] at hfolder
            cases hfolder

theorem IsLeaf.ne_folder (h : disk.IsLeaf k) : disk.lookup k ≠ some .folder := by
  intro hfolder
  cases h _ hfolder

/-- An entry may be put into a folder where no other folder stands. -/
theorem Closed.insert (h : disk.Closed) (hfolder : disk.lookup k = some .folder)
    (hleaf : disk.IsLeaf (k ++ [name])) : (disk.insert (k ++ [name]) e).Closed := by
  intro j x e' hj
  rw [lookup_insert (by simp)] at hj ⊢
  by_cases heq : j ++ [x] = k ++ [name]
  · obtain ⟨rfl, -⟩ := List.append_inj' heq rfl
    rw [if_neg (by simp)]
    exact hfolder
  · rw [if_neg heq] at hj
    have hparent := h _ _ _ hj
    rw [if_neg ?_]
    · exact hparent
    · rintro rfl
      exact hleaf.ne_folder hparent

/-- An entry may be taken out with what is below it. -/
theorem Closed.erase (h : disk.Closed) (hk : k ≠ []) : (disk.erase k).Closed := by
  intro j x e' hj
  rw [lookup_erase hk] at hj ⊢
  by_cases hpre : k <+: j ++ [x]
  · rw [if_pos hpre] at hj
    cases hj
  · rw [if_neg hpre] at hj
    rw [if_neg fun hk => hpre (hk.trans (List.prefix_append j [x]))]
    exact h _ _ _ hj

/-- What paths reach is a folder. -/
theorem Reaches.lookup (h : Reaches disk links here steps left there) (hclosed : disk.Closed)
    (hhere : disk.lookup here = some .folder) : disk.lookup there = some .folder := by
  induction h with
  | arrived => exact hhere
  | idle hidle hrest ih => exact ih hhere
  | @up _ _ here _ _ hrest ih =>
      refine ih ?_
      rcases List.eq_nil_or_concat' here with rfl | ⟨s, x, heq⟩
      · rfl
      · rw [heq] at hhere ⊢
        rw [List.dropLast_concat]
        exact hclosed _ _ _ hhere
  | folder hstep hfolder hrest ih => exact ih hfolder
  | followed hstep hlink htarget hrest ih =>
      refine ih ?_
      split
      · rfl
      · exact hhere

theorem lookup_nil (disk : Disk) : disk.lookup [] = some .folder := rfl

-- ================================================================= making folders

/-- Whether a disk came from another by making folders of these names. -/
structure Grown (names : List Text) (disk disk' : Disk) : Prop where
  kept : ∀ k e, disk.lookup k = some e → disk'.lookup k = some e
  new : ∀ k e, disk'.lookup k = some e → disk.lookup k = some e
    ∨ e = .folder ∧ ∃ name ∈ names, k.getLast? = some name
  closed : disk'.Closed

theorem Grown.refl (h : disk.Closed) : Grown names disk disk :=
  ⟨fun _ _ h => h, fun _ _ h => .inl h, h⟩

theorem Grown.trans (h : Grown names disk disk') (h' : Grown names disk' disk'') :
    Grown names disk disk'' where
  kept := fun k e hk => h'.kept k e (h.kept k e hk)
  new := by
    intro k e hk
    rcases h'.new k e hk with hk | hnew
    · exact h.new k e hk
    · exact .inr hnew
  closed := h'.closed

/-- One folder more. -/
theorem grown_insert (hclosed : disk.Closed) (hfolder : disk.lookup k = some .folder)
    (hnone : disk.lookup (k ++ [name]) = none) (hname : name ∈ names) :
    Grown names disk (disk.insert (k ++ [name]) .folder) where
  kept := by
    intro j e hj
    rw [lookup_insert (by simp), if_neg]
    · exact hj
    · rintro rfl
      rw [hnone] at hj
      cases hj
  new := by
    intro j e hj
    rw [lookup_insert (by simp)] at hj
    by_cases heq : j = k ++ [name]
    · rw [if_pos heq] at hj
      cases hj
      exact .inr ⟨rfl, name, hname, by rw [heq]; exact List.getLast?_concat⟩
    · rw [if_neg heq] at hj
      exact .inl hj
  closed := by
    refine hclosed.insert hfolder fun e he => ?_
    rw [hnone] at he
    cases he

/-- An entry under none of the names was there before. -/
theorem Grown.lookup_of_new (h : Grown names disk disk')
    (hname : ∀ name ∈ names, k.getLast? ≠ some name) : disk'.lookup k = disk.lookup k := by
  cases hk : disk'.lookup k with
  | none =>
      cases hk' : disk.lookup k with
      | none => rfl
      | some e =>
          rw [h.kept k e hk'] at hk
          cases hk
  | some e =>
      rcases h.new k e hk with hk' | ⟨-, name, hmem, hlast⟩
      · exact hk'.symm
      · exact absurd hlast (hname name hmem)

/-- A folder is made in the folder that the steps before its name reach. -/
theorem makeFolder_eq_ok (hpath : Path.segments path = steps ++ [name]) (hname : IsName name)
    (h : disk.makeFolder path = .ok disk') :
    ∃ left there, Reaches disk 40 [] steps left there ∧ disk.lookup (there ++ [name]) = none
      ∧ disk' = disk.insert (there ++ [name]) .folder := by
  unfold makeFolder at h
  rw [Path.bare_eq hpath hname] at h
  cases hlocate : disk.locate false path with
  | error fault =>
      rw [hlocate] at h
      cases h
  | ok r =>
      rw [hlocate] at h
      obtain ⟨-, -, left, there, hreaches, rfl⟩ := (locate_name hpath hname).1 hlocate
      refine ⟨left, there, hreaches, ?_⟩
      cases hlookup : disk.lookup (there ++ [name]) with
      | some e =>
          rw [place_of_some hlookup] at h
          cases h
      | none =>
          rw [place_of_none hlookup] at h
          cases h
          exact ⟨rfl, rfl⟩

theorem grown_makeFolder (hclosed : disk.Closed) (hpath : Path.segments path = steps ++ [name])
    (hname : IsName name) (hmem : name ∈ names) (h : disk.makeFolder path = .ok disk') :
    Grown names disk disk' := by
  obtain ⟨left, there, hreaches, hnone, rfl⟩ := makeFolder_eq_ok hpath hname h
  exact grown_insert hclosed (hreaches.lookup hclosed (lookup_nil disk)) hnone hmem

/-- What is missing is not a folder above one that can be reached. -/
theorem makeFolder_ne_missing (hpath : Path.segments path = steps ++ [name]) (hstep : IsStep name)
    (hreaches : Reaches disk 40 [] steps left there) : disk.makeFolder path ≠ .error .missing := by
  have hname := hstep.isName
  intro h
  unfold makeFolder at h
  rw [Path.bare_eq hpath hname] at h
  by_cases hispath : IsPath path
  · have hlocate := (locate_name hpath hname).2 ⟨hispath, hstep, left, there, hreaches, rfl⟩
    rw [hlocate] at h
    cases hlookup : disk.lookup (there ++ [name]) with
    | some e =>
        rw [place_of_some hlookup] at h
        cases h
    | none =>
        rw [place_of_none hlookup] at h
        cases h
  · obtain ⟨fault, hfault, hlocate⟩ := locate_of_not_isPath (Path.ne_nil_of_segments hpath hname) hispath
    rw [hlocate] at h
    cases h
    exact hfault rfl

/-- What asking for one folder comes to. It is made, or the disk stays as it was, and then all
is well only if the path leads to a folder. -/
def Asked (path : Text) (disk : Disk) (answer : Except Fault Unit) (disk' : Disk) : Prop :=
  disk.makeFolder path = .ok disk' ∧ answer = .ok ()
    ∨ disk' = disk ∧ (answer = .ok () → disk.isFolder path = true)

theorem asked_of_error {answer : Except Fault Unit} {fault : Fault}
    (h : (if disk.isFolder path then Except.ok () else .error fault, disk) = (answer, disk')) :
    Asked path disk answer disk' := by
  cases hfolder : disk.isFolder path with
  | true =>
      rw [hfolder] at h
      cases h
      exact .inr ⟨rfl, fun _ => hfolder⟩
  | false =>
      rw [hfolder] at h
      cases h
      exact .inr ⟨rfl, fun h => by cases h⟩

/-- A folder is asked for once, or, where it finds nothing to stand in, once more after the one
above it, with those above that in turn. -/
theorem makeFolderBelow_cases {parents : List Text} {answer : Except Fault Unit}
    (h : disk.makeFolderBelow path parents = (answer, disk')) :
    Asked path disk answer disk'
      ∨ disk.makeFolder path = .error .missing ∧ ∃ parent rest, parents = parent :: rest
        ∧ ((∃ fault, disk.makeFolderBelow parent rest = (.error fault, disk') ∧ answer = .error fault)
          ∨ ∃ below, disk.makeFolderBelow parent rest = (.ok (), below) ∧ Asked path below answer disk') := by
  unfold makeFolderBelow at h
  split at h
  next made hmake =>
    cases h
    exact .inl (.inl ⟨hmake, rfl⟩)
  next hmissing =>
    cases parents with
    | nil =>
        cases h
        exact .inl (.inr ⟨rfl, fun h => by cases h⟩)
    | cons parent rest =>
        refine .inr ⟨hmissing, parent, rest, rfl, ?_⟩
        dsimp only at h
        split at h
        next fault below hbelow =>
          cases h
          exact .inl ⟨fault, hbelow, rfl⟩
        next below hbelow =>
          refine .inr ⟨below, hbelow, ?_⟩
          split at h
          next made hmake =>
            cases h
            exact .inl ⟨hmake, rfl⟩
          next fault hmake => exact asked_of_error h
  next fault hne hmake => exact .inl (asked_of_error h)

/-- Making the folder at a path, with one above it first, makes folders of these
names. -/
theorem grown_makeFolderBelow {parents : List Text} (hclosed : disk.Closed)
    (hpath : Path.segments path = steps ++ [name]) (hname : IsName name) (hmem : name ∈ names)
    (habove : disk.makeFolder path = .error .missing → ∀ parent ∈ parents.head?,
      Grown names disk (disk.makeFolderBelow parent parents.tail).2) :
    Grown names disk (disk.makeFolderBelow path parents).2 := by
  have hasked : ∀ {disk₁ answer disk₂}, disk₁.Closed → Asked path disk₁ answer disk₂ → Grown names disk₁ disk₂ := by
    intro disk₁ answer disk₂ hclosed hasked
    obtain ⟨hmake, -⟩ | ⟨rfl, -⟩ := hasked
    · exact grown_makeFolder hclosed hpath hname hmem hmake
    · exact .refl hclosed
  cases hbelow : disk.makeFolderBelow path parents with
  | mk answer disk' =>
      obtain honce | ⟨hmissing, parent, rest, rfl, hparent⟩ := makeFolderBelow_cases hbelow
      · exact hasked hclosed honce
      · have hgrown := habove hmissing parent rfl
        rw [List.tail_cons] at hgrown
        obtain ⟨fault, hparent, -⟩ | ⟨below, hparent, hagain⟩ := hparent
        · rw [hparent] at hgrown
          exact hgrown
        · rw [hparent] at hgrown
          exact hgrown.trans (hasked hgrown.closed hagain)

theorem parentsOf_succ {parent : Text} (h : Path.parent? path = some parent) (hne : parent ≠ [])
    (depth : Nat) : parentsOf (depth + 1) path = parent :: parentsOf depth parent := by
  obtain ⟨c, s, rfl⟩ := List.exists_cons_of_ne_nil hne
  rw [parentsOf, h]

/-- Making a folder two below one that stands in a folder makes folders of these
names. -/
theorem grown_makeFolders {base a b c : Text} (hclosed : disk.Closed)
    (hbase : Path.segments base = steps ++ [a]) (hreaches : Reaches disk 40 [] steps left there)
    (ha : IsStep a) (hb : IsName b) (hc : IsName c) (hslashes : '/' ∉ b ∧ '/' ∉ c)
    (hmem : a ∈ names ∧ b ∈ names ∧ c ∈ names) :
    Grown names disk (disk.makeFolders (Path.child (Path.child base b) c)).2 := by
  have hmiddle : Path.segments (Path.child base b) = steps ++ [a] ++ [b] := by
    rw [Path.segments_child hslashes.1, hbase]
  have hlast : Path.segments (Path.child (Path.child base b) c) = steps ++ [a] ++ [b] ++ [c] := by
    rw [Path.segments_child hslashes.2, hmiddle]
  have hparents : ∃ more, parentsOf (Path.child (Path.child base b) c).length
      (Path.child (Path.child base b) c) = Path.child base b :: base :: more := by
    have hlength : ∃ n, (Path.child (Path.child base b) c).length = n + 1 + 1 := by
      refine ⟨base.length + b.length + c.length, ?_⟩
      simp only [Path.child, List.length_append, List.length_cons]
      omega
    obtain ⟨n, hn⟩ := hlength
    have hparent := Path.parent?_child hmiddle hb hc hslashes.2
    have hparent' := Path.parent?_child hbase ha.isName hb hslashes.1
    rw [hn, parentsOf_succ hparent (Path.ne_nil_of_segments hmiddle hb),
      parentsOf_succ hparent' (Path.ne_nil_of_segments hbase ha.isName)]
    exact ⟨_, rfl⟩
  obtain ⟨more, hmore⟩ := hparents
  unfold makeFolders
  rw [if_neg (Path.ne_nil_of_segments hlast hc), hmore]
  refine grown_makeFolderBelow hclosed hlast hc hmem.2.2 fun _ parent hparent => ?_
  obtain rfl : Path.child base b = parent := by simpa using hparent
  refine grown_makeFolderBelow hclosed hmiddle hb hmem.2.1 fun _ parent hparent => ?_
  obtain rfl : base = parent := by simpa using hparent
  exact grown_makeFolderBelow hclosed hbase ha.isName hmem.1 fun hmissing =>
    absurd hmissing (makeFolder_ne_missing hbase ha hreaches)

-- ================================================================ a change of a file

/-- Whether two disks differ at one place, where a file or nothing stands on either. -/
structure Change (k : Key) (disk disk' : Disk) : Prop where
  root : k ≠ []
  same : AgreeBut k disk disk'
  leaf : disk.IsLeaf k
  leaf' : disk'.IsLeaf k
  closed : disk'.Closed

namespace Change

theorem agreeOff (h : Change k disk disk') : AgreeOff k disk disk' := h.same.agreeOff

/-- A file with another content. -/
theorem of_file {x x' : Bool} {c c' : Content} (hclosed : disk.Closed) (hroot : k ≠ [])
    (hsame : AgreeBut k disk disk') (hfile : disk.lookup k = some (.file x c))
    (hfile' : disk'.lookup k = some (.file x' c')) : Change k disk disk' where
  root := hroot
  same := hsame
  leaf := isLeaf_of_file hfile
  leaf' := isLeaf_of_file hfile'
  closed := by
    intro j name e hj
    have hparent : disk.lookup j = some .folder := by
      by_cases heq : j ++ [name] = k
      · rw [← heq] at hfile
        exact hclosed _ _ _ hfile
      · rw [hsame _ heq] at hj
        exact hclosed _ _ _ hj
    rw [hsame j ?_]
    · exact hparent
    · rintro rfl
      rw [hfile] at hparent
      cases hparent

/-- A file where nothing was. -/
theorem of_insert {x : Bool} {c : Content} (hclosed : disk.Closed)
    (hfolder : disk.lookup there = some .folder) (hnone : disk.lookup (there ++ [name]) = none) :
    Change (there ++ [name]) disk (disk.insert (there ++ [name]) (.file x c)) where
  root := by simp
  same := fun j hj => by rw [lookup_insert (by simp), if_neg hj]
  leaf := by
    intro e he
    rw [hnone] at he
    cases he
  leaf' := isLeaf_of_file (by rw [lookup_insert (by simp), if_pos rfl])
  closed := by
    refine hclosed.insert hfolder fun e he => ?_
    rw [hnone] at he
    cases he

/-- Nothing where a file was. -/
theorem of_erase {x : Bool} {c : Content} (hclosed : disk.Closed)
    (hfile : disk.lookup k = some (.file x c)) : Change k disk (disk.erase k) where
  root := by
    rintro rfl
    cases hfile
  same := by
    intro j hj
    have hroot : k ≠ [] := by
      rintro rfl
      cases hfile
    rw [lookup_erase hroot]
    by_cases hpre : k <+: j
    · rw [if_pos hpre, hclosed.below (isLeaf_of_file hfile).ne_folder hpre hj]
    · rw [if_neg hpre]
  leaf := isLeaf_of_file hfile
  leaf' := by
    intro e he
    have hroot : k ≠ [] := by
      rintro rfl
      cases hfile
    rw [lookup_erase hroot, if_pos (List.prefix_refl k)] at he
    cases he
  closed := hclosed.erase (by rintro rfl; cases hfile)

end Change

end SiteScaffold.Disk

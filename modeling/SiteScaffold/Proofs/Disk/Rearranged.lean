/-
What single steps of the system do in a tree, said by places: a file is moved to a free
place (`Tree.move`), a folder goes with everything below it (`Tree.removeTree`), folders
come where nothing was (`Tree.makeFolders`). Each step leaves a tree.
-/
import SiteScaffold.Proofs.Disk.Tree

namespace SiteScaffold.Disk

open Path (IsName IsPlain lead under)

variable {disk disk' disk'' : Disk} {j k k' top : Key} {e : Entry} {base name path : Text}

-- ================================================================ a file is moved

/-- Whether two disks differ in that a file was moved from one place to another, where
nothing was. -/
structure Moved (source target : Key) (disk disk' : Disk) : Prop where
  file : ∃ x c, disk.lookup source = some (.file x c) ∧ disk'.lookup target = some (.file x c)
  free : disk.lookup target = none
  gone : disk'.lookup source = none
  same : ∀ j, j ≠ source → j ≠ target → disk'.lookup j = disk.lookup j

theorem moved_relocate {source target : Key} {x : Bool} {c : Content} (hclosed : disk.Closed)
    (hsource : disk.lookup source = some (.file x c)) (htarget : disk.lookup target = none) :
    Moved source target disk (disk.relocate source target (.file x c)) := by
  have hroot : source ≠ [] := by
    rintro rfl
    cases hsource
  have hroot' : target ≠ [] := by
    rintro rfl
    cases htarget
  have hne : source ≠ target := by
    rintro rfl
    rw [hsource] at htarget
    cases htarget
  have hbelow : ∀ j, source <+: j → j ≠ source → disk.lookup j = none :=
    fun j => hclosed.below (by simp [hsource])
  have hbelow' : ∀ j, target <+: j → j ≠ target → disk.lookup j = none :=
    fun j => hclosed.below (by simp [htarget])
  have hnothing : disk.below source = [] := by
    rw [List.eq_nil_iff_forall_not_mem]
    rintro ⟨j, e⟩ hmem
    obtain ⟨hj, hlookup⟩ := mem_below_iff.1 hmem
    rw [hbelow _ (List.prefix_append source j) (by simp [hj])] at hlookup
    cases hlookup
  have hlookup : ∀ j, (disk.relocate source target (.file x c)).lookup j
      = if j = target then some (.file x c) else if j = source then none else disk.lookup j := by
    intro j
    rw [relocate, hnothing, List.foldl_nil, lookup_insert hroot', lookup_erase hroot', lookup_erase hroot]
    by_cases hj : j = target
    · rw [if_pos hj, if_pos hj]
    · rw [if_neg hj, if_neg hj]
      by_cases hpre : target <+: j
      · rw [if_pos hpre, hbelow' j hpre hj]
        simp
      · rw [if_neg hpre]
        by_cases hj' : j = source
        · rw [if_pos hj', hj', if_pos (List.prefix_refl source)]
        · rw [if_neg hj']
          by_cases hpre' : source <+: j
          · rw [if_pos hpre', hbelow j hpre' hj']
          · rw [if_neg hpre']
  exact {
    file := ⟨x, c, hsource, by rw [hlookup, if_pos rfl]⟩
    free := htarget
    gone := by rw [hlookup, if_neg hne, if_pos rfl]
    same := fun j hj hj' => by rw [hlookup, if_neg hj', if_neg hj] }

/-- No folder comes. -/
theorem Moved.folder {source target : Key} (h : Moved source target disk disk')
    (hlookup : disk'.lookup j = some .folder) : disk.lookup j = some .folder := by
  obtain ⟨x, c, -, htarget⟩ := h.file
  rw [← h.same j]
  · exact hlookup
  · rintro rfl
    rw [h.gone] at hlookup
    cases hlookup
  · rintro rfl
    rw [htarget] at hlookup
    cases hlookup

theorem Moved.closed {source : Key} (h : Moved source (k ++ [name]) disk disk') (hclosed : disk.Closed)
    (hfolder : disk.lookup k = some .folder) : disk'.Closed := by
  obtain ⟨x, c, hsource, htarget⟩ := h.file
  have hkept : ∀ j, disk.lookup j = some .folder → disk'.lookup j = some .folder := by
    intro j hj
    rw [h.same j]
    · exact hj
    · rintro rfl
      rw [hsource] at hj
      cases hj
    · rintro rfl
      rw [h.free] at hj
      cases hj
  intro j n e hlookup
  by_cases heq : j ++ [n] = k ++ [name]
  · obtain ⟨rfl, -⟩ := List.append_inj' heq rfl
    exact hkept _ hfolder
  · by_cases heq' : j ++ [n] = source
    · rw [heq', h.gone] at hlookup
      cases hlookup
    · rw [h.same _ heq' heq] at hlookup
      exact hkept _ (hclosed _ _ _ hlookup)

-- ============================================================== a folder is emptied

theorem erase_clear (disk : Disk) (k : Key) : (disk.clear k).erase k = disk.erase k := by
  show Disk.mk _ _ = Disk.mk _ _
  congr 1
  show (disk.entries.filter _).filter _ = disk.entries.filter _
  rw [List.filter_filter]
  refine List.filter_congr fun entry _ => ?_
  by_cases hwithin : k.within entry.1
  · simp [hwithin]
  · simp [Bool.eq_false_iff.2 hwithin]

theorem below_clear (disk : Disk) (k : Key) : (disk.clear k).below k = [] := by
  rw [List.eq_nil_iff_forall_not_mem]
  rintro ⟨j, e⟩ hmem
  obtain ⟨hj, hlookup⟩ := mem_below_iff.1 hmem
  rw [lookup_clear, if_pos ⟨List.prefix_append _ j, by simp [hj]⟩] at hlookup
  cases hlookup

/-- A folder is removed by a path that ends in its name, if the path still leads to it after
it was emptied. -/
theorem removeTree_of_find (hfind : disk.find false path = .ok (k, .folder))
    (hcleared : (disk.clear k).find false (Path.bare path) = .ok (k, .folder))
    (hlast : ∃ name, (Path.segments (Path.bare path)).getLast? = some name ∧ IsName name) :
    disk.removeTree path = (.ok (), disk.erase k) := by
  obtain ⟨name, hlast, hname⟩ := hlast
  have hhere : name ≠ ".".toList := by
    rintro rfl
    cases hname.idle
  have hremove : (disk.clear k).removeFolder path = .ok (disk.erase k) := by
    unfold removeFolder
    rw [hlast, hcleared]
    show (if some name = some ".".toList then _ else if some name = some "..".toList || _ then _ else _) = _
    rw [if_neg (by simpa using hhere), if_neg, erase_clear]
    rw [below_clear]
    simpa using hname.up
  unfold removeTree
  rw [hfind]
  dsimp only
  rw [hremove]

namespace Tree

variable (tree : Tree base top disk)

include tree

/-- A tree in which a file was moved is still one. -/
theorem moved (hfolder : disk.lookup (top ++ k') = some .folder)
    (h : Moved (top ++ k) (top ++ (k' ++ [name])) disk disk') (hstep : IsStep name) (hslash : '/' ∉ name) :
    Tree base top disk' := by
  obtain ⟨x, c, hsource, htarget⟩ := h.file
  refine tree.congr (agreeAround_of fun j hne => ?_) ?_ fun i n e hlookup => ?_
  · by_cases hj : j = top ++ (k' ++ [name])
    · exact ⟨_, by simp, hj⟩
    · by_cases hj' : j = top ++ k
      · refine ⟨k, ?_, hj'⟩
        rintro rfl
        rw [List.append_nil, tree.folder] at hsource
        cases hsource
      · exact absurd (h.same j hj' hj) hne
  · rw [← List.append_assoc] at h
    exact h.closed tree.closed hfolder
  · by_cases heq : top ++ (i ++ [n]) = top ++ (k' ++ [name])
    · rw [heq, htarget] at hlookup
      cases hlookup
      obtain ⟨-, hn⟩ := List.append_inj' (List.append_cancel_left heq) rfl
      cases hn
      exact ⟨hstep, hslash, rfl⟩
    · by_cases heq' : top ++ (i ++ [n]) = top ++ k
      · rw [heq', h.gone] at hlookup
        cases hlookup
      · rw [h.same _ heq' heq] at hlookup
        exact tree.plain _ _ _ hlookup

/-- What is no folder is moved to a free place if the system takes it. -/
theorem move (hk : k ≠ []) (hnames : ∀ n ∈ k, IsPlain n) (hnames' : ∀ n ∈ k' ++ [name], IsPlain n)
    (hsource : disk.lookup (top ++ k) ≠ some .folder)
    (hfree : disk.holds (under base (k' ++ [name])) = false)
    (h : disk.move (under base k) (under base (k' ++ [name])) = .ok disk') :
    IsPath (under base (k' ++ [name])) ∧ Moved (top ++ k) (top ++ (k' ++ [name])) disk disk'
      ∧ Tree base top disk' := by
  have hsourcepath : Path.bare (under base k) = _ ∧ _ := Path.bare_under hk hnames
  have htargetpath : Path.bare (under base (k' ++ [name])) = _ ∧ _ := Path.bare_under (by simp) hnames'
  unfold Disk.move find at h
  rw [hsourcepath.1, htargetpath.1, hsourcepath.2, htargetpath.2] at h
  cases hlocate : disk.locate false (under base k) with
  | error fault =>
      rw [hlocate] at h
      cases h
  | ok r =>
      rw [hlocate] at h
      match r, h with
      | .entry j e, h =>
          obtain ⟨-, rfl, hentry⟩ := (tree.locate_entry hk hnames).1 hlocate
          obtain rfl | ⟨x, c, rfl⟩ := tree.folder_or_file hentry
          · exact absurd hentry hsource
          · cases hlocate' : disk.locate false (under base (k' ++ [name])) with
            | error fault =>
                rw [hlocate'] at h
                cases h
            | ok r =>
                rw [hlocate'] at h
                obtain ⟨hpath, hstep, hfolder, rfl⟩ := (tree.locate hnames').1 hlocate'
                have hnone : disk.lookup (top ++ (k' ++ [name])) = none := by
                  refine Option.eq_none_iff_forall_ne_some.2 fun e he => ?_
                  have htrue := (tree.holds_iff (by simp) hnames').2 ⟨hpath, e, he⟩
                  rw [hfree] at htrue
                  cases htrue
                rw [place_of_none hnone] at h
                have hmove : (if Key.within (top ++ k) (top ++ (k' ++ [name])) = true then Except.error Fault.invalid
                    else .ok (disk.relocate (top ++ k) (top ++ (k' ++ [name])) (.file x c))) = .ok disk' := h
                split at hmove
                next => cases hmove
                next =>
                  cases hmove
                  have hmoved := moved_relocate tree.closed hentry hnone
                  refine ⟨hpath, hmoved, tree.moved hfolder hmoved hstep ?_⟩
                  exact (hnames' name (by simp)).slash

-- ============================================================== a folder is removed

/-- A tree from which some entries inside go, each with everything below it, is still
one. -/
theorem without (gone : Key → Prop) (hgone : ∀ j, gone j → disk'.lookup j = none)
    (hkept : ∀ j, ¬ gone j → disk'.lookup j = disk.lookup j)
    (hbelow : ∀ j name, gone j → gone (j ++ [name]))
    (hinside : ∀ j, gone j → ∃ i, i ≠ [] ∧ j = top ++ i) : Tree base top disk' := by
  have hbefore : ∀ j e, disk'.lookup j = some e → ¬ gone j ∧ disk.lookup j = some e := by
    intro j e hj
    have hnot : ¬ gone j := by
      intro h
      rw [hgone j h] at hj
      cases hj
    rw [hkept j hnot] at hj
    exact ⟨hnot, hj⟩
  refine tree.congr (agreeAround_of fun j hne => ?_) (fun j name e hj => ?_) fun i name e hj => ?_
  · exact hinside j (Classical.byContradiction fun h => hne (hkept j h))
  · obtain ⟨hnot, hlookup⟩ := hbefore _ e hj
    rw [hkept j fun h => hnot (hbelow j name h)]
    exact tree.closed _ _ _ hlookup
  · exact tree.plain _ _ _ (hbefore _ e hj).2

/-- Only a folder is removed that way. -/
theorem folder_of_removeTree (hk : k ≠ []) (hnames : ∀ n ∈ k, IsPlain n)
    (h : disk.removeTree (under base k) = (.ok (), disk')) :
    IsPath (under base k) ∧ disk.lookup (top ++ k) = some .folder := by
  unfold Disk.removeTree find at h
  cases hlocate : disk.locate false (under base k) with
  | error fault =>
      rw [hlocate] at h
      cases h
  | ok r =>
      rw [hlocate] at h
      match r, h with
      | .entry j e, h =>
          obtain ⟨hpath, rfl, hlookup⟩ := (tree.locate_entry hk hnames).1 hlocate
          obtain rfl | ⟨x, c, rfl⟩ := tree.folder_or_file hlookup
          · exact ⟨hpath, hlookup⟩
          · cases h

/-- A tree in which a folder was emptied. -/
theorem cleared : Tree base top (disk.clear (top ++ k)) := by
  refine tree.without (fun j => top ++ k <+: j ∧ j ≠ top ++ k) (fun j hj => ?_) (fun j hj => ?_)
    (fun j name hj => ⟨hj.1.trans (List.prefix_append j [name]), ?_⟩) ?_
  · rw [lookup_clear, if_pos hj]
  · rw [lookup_clear, if_neg hj]
  · intro heq
    have hlength := hj.1.length_le
    rw [← heq, List.length_append, List.length_singleton] at hlength
    omega
  · rintro j ⟨⟨t, rfl⟩, hne⟩
    refine ⟨k ++ t, ?_, List.append_assoc ..⟩
    rintro hnil
    obtain ⟨rfl, rfl⟩ := List.append_eq_nil_iff.1 hnil
    simp at hne

/-- A tree from which a folder is gone. -/
theorem erased (hk : k ≠ []) : Tree base top (disk.erase (top ++ k)) := by
  have hroot : top ++ k ≠ [] := by simp [hk]
  refine tree.without (fun j => top ++ k <+: j) (fun j hj => ?_) (fun j hj => ?_)
    (fun j name hj => hj.trans (List.prefix_append j [name])) ?_
  · rw [lookup_erase hroot, if_pos hj]
  · rw [lookup_erase hroot, if_neg hj]
  · rintro j ⟨t, rfl⟩
    exact ⟨k ++ t, by simp [hk], List.append_assoc ..⟩

/-- A folder that stands at a path is removed. -/
theorem removeTree_eq (hk : k ≠ []) (hnames : ∀ n ∈ k, IsPlain n) (hpath : IsPath (under base k))
    (hfolder : disk.lookup (top ++ k) = some .folder) :
    disk.removeTree (under base k) = (.ok (), disk.erase (top ++ k)) := by
  have hfound : ∀ {disk : Disk}, Tree base top disk → disk.lookup (top ++ k) = some .folder →
      disk.find false (under base k) = .ok (top ++ k, .folder) := by
    intro disk tree hfolder
    rw [find, (tree.locate_entry hk hnames).2 ⟨hpath, rfl, hfolder⟩]
    rfl
  have hstill : (disk.clear (top ++ k)).lookup (top ++ k) = some .folder := by
    rw [lookup_clear, if_neg (by simp)]
    exact hfolder
  refine removeTree_of_find (hfound tree hfolder) ?_ ?_
  · rw [(Path.bare_under hk hnames).1]
    exact hfound tree.cleared hstill
  · obtain ⟨front, name, rfl⟩ := List.eq_nil_or_concat' k |>.resolve_left hk
    refine ⟨name, ?_, (hnames name (by simp)).toIsName⟩
    rw [(Path.bare_under (by simp) hnames).1, Path.segments_under (by simp) hnames,
      ← List.append_assoc, List.getLast?_concat]

/-- A folder goes with everything below it. -/
theorem removeTree (hk : k ≠ []) (hnames : ∀ n ∈ k, IsPlain n)
    (h : disk.removeTree (under base k) = (.ok (), disk')) : Tree base top disk'
      ∧ ∀ j, disk'.lookup j = if top ++ k <+: j then none else disk.lookup j := by
  obtain ⟨hpath, hfolder⟩ := tree.folder_of_removeTree hk hnames h
  rw [tree.removeTree_eq hk hnames hpath hfolder] at h
  cases h
  exact ⟨tree.erased hk, fun j => lookup_erase (by simp [hk])⟩

end Tree

-- ================================================================= folders are made

/-- Whether a disk came from another by making folders at some places. -/
structure Furnished (made : Key → Prop) (disk disk' : Disk) : Prop where
  kept : ∀ j e, disk.lookup j = some e → disk'.lookup j = some e
  new : ∀ j e, disk'.lookup j = some e → disk.lookup j = some e ∨ e = .folder ∧ made j

theorem Furnished.refl (made : Key → Prop) (disk : Disk) : Furnished made disk disk :=
  ⟨fun _ _ h => h, fun _ _ h => .inl h⟩

theorem Furnished.trans {made : Key → Prop} (h : Furnished made disk disk')
    (h' : Furnished made disk' disk'') : Furnished made disk disk'' where
  kept := fun j e hj => h'.kept j e (h.kept j e hj)
  new := fun j e hj => (h'.new j e hj).elim (h.new j e) .inr

/-- A folder that is made where nothing was. -/
theorem Furnished.of_insert {made : Key → Prop} (hk : k ≠ []) (hnone : disk.lookup k = none) (hmade : made k) :
    Furnished made disk (disk.insert k .folder) := by
  refine ⟨lookup_insert_of_none hk hnone _, fun j e hj => ?_⟩
  rw [lookup_insert hk] at hj
  split at hj
  next heq =>
    cases hj
    exact .inr ⟨rfl, heq ▸ hmade⟩
  next => exact .inl hj

namespace Tree

variable (tree : Tree base top disk) {made : Key → Prop}

include tree

/-- A tree with one more folder is a tree. -/
theorem insert_folder (hstep : IsStep name) (hslash : '/' ∉ name) (hfolder : disk.lookup (top ++ k) = some .folder)
    (hnone : disk.lookup (top ++ (k ++ [name])) = none) :
    Tree base top (disk.insert (top ++ (k ++ [name])) .folder) := by
  have hne : top ++ (k ++ [name]) ≠ [] := by simp
  refine tree.congr (agreeAround_of fun j hj => ?_) ?_ fun i n e hj => ?_
  · rw [lookup_insert hne] at hj
    by_cases heq : j = top ++ (k ++ [name])
    · exact ⟨_, by simp, heq⟩
    · rw [if_neg heq] at hj
      exact absurd rfl hj
  · rw [← List.append_assoc]
    refine tree.closed.insert hfolder fun e he => ?_
    rw [List.append_assoc, hnone] at he
    cases he
  · rw [lookup_insert hne] at hj
    split at hj
    next heq =>
      cases hj
      obtain ⟨-, hn⟩ := List.append_inj' (List.append_cancel_left heq) rfl
      cases hn
      exact ⟨hstep, hslash, rfl⟩
    next => exact tree.plain _ _ _ hj

/-- A folder is made where nothing was. -/
theorem makeFolder (hnames : ∀ n ∈ k ++ [name], IsPlain n) (hmade : made (top ++ (k ++ [name])))
    (h : disk.makeFolder (under base (k ++ [name])) = .ok disk') :
    Furnished made disk disk' ∧ Tree base top disk' ∧ disk'.isFolder (under base (k ++ [name])) := by
  unfold Disk.makeFolder at h
  rw [(Path.bare_under (by simp) hnames).1] at h
  cases hlocate : disk.locate false (under base (k ++ [name])) with
  | error fault =>
      rw [hlocate] at h
      cases h
  | ok r =>
      rw [hlocate] at h
      obtain ⟨hpath, hstep, hfolder, rfl⟩ := (tree.locate hnames).1 hlocate
      cases hlookup : disk.lookup (top ++ (k ++ [name])) with
      | some e =>
          rw [place_of_some hlookup] at h
          cases h
      | none =>
          rw [place_of_none hlookup] at h
          cases h
          have htree := tree.insert_folder hstep (hnames name (by simp)).slash hfolder hlookup
          refine ⟨.of_insert (by simp) hlookup hmade, htree, (htree.isFolder_iff (by simp) hnames).2 ⟨hpath, ?_⟩⟩
          rw [lookup_insert (by simp), if_pos rfl]

/-- A folder is made, with the one above it first if that is missing. -/
theorem makeFolderBelow {parents : List Text} (hnames : ∀ n ∈ k ++ [name], IsPlain n)
    (hmade : made (top ++ (k ++ [name])))
    (habove : disk.makeFolder (under base (k ++ [name])) = .error .missing →
      ∀ parent ∈ parents.head?, ∀ disk₁, disk.makeFolderBelow parent parents.tail = (.ok (), disk₁) →
        Furnished made disk disk₁ ∧ Tree base top disk₁)
    (h : disk.makeFolderBelow (under base (k ++ [name])) parents = (.ok (), disk')) :
    Furnished made disk disk' ∧ Tree base top disk' ∧ disk'.isFolder (under base (k ++ [name])) := by
  have hasked : ∀ {disk₁ disk₂}, Tree base top disk₁ → Asked (under base (k ++ [name])) disk₁ (.ok ()) disk₂ →
      Furnished made disk₁ disk₂ ∧ Tree base top disk₂ ∧ disk₂.isFolder (under base (k ++ [name])) := by
    intro disk₁ disk₂ tree hasked
    obtain ⟨hmake, -⟩ | ⟨rfl, hfolder⟩ := hasked
    · exact tree.makeFolder hnames hmade hmake
    · exact ⟨.refl made _, tree, hfolder rfl⟩
  obtain honce | ⟨hmissing, parent, rest, rfl, ⟨fault, -, hfails⟩ | ⟨disk₁, hparent, hagain⟩⟩ :=
    makeFolderBelow_cases h
  · exact hasked tree honce
  · cases hfails
  · obtain ⟨hfurnished, tree₁⟩ := habove hmissing parent rfl disk₁ hparent
    obtain ⟨hfurnished', htree, hfolder⟩ := hasked tree₁ hagain
    exact ⟨hfurnished.trans hfurnished', htree, hfolder⟩

/-- A folder is made below the one of the tree, with those in between that are missing. -/
theorem makeFolderBelow_under {depth : Nat} (hk : k ≠ []) (hnames : ∀ n ∈ k, IsStep n ∧ '/' ∉ n)
    (hmade : ∀ front, front ≠ [] → front <+: k → made (top ++ front)) (hdepth : (under base k).length ≤ depth)
    (h : disk.makeFolderBelow (under base k) (parentsOf depth (under base k)) = (.ok (), disk')) :
    Furnished made disk disk' ∧ Tree base top disk' ∧ disk'.isFolder (under base k) := by
  have hplain := isPlain_of_steps hnames
  have hnil : under base k ≠ [] := Path.under_ne_nil hk hplain
  induction depth generalizing k disk' with
  | zero => exact absurd (List.eq_nil_of_length_eq_zero (Nat.le_zero.1 hdepth)) hnil
  | succ depth ih =>
      obtain ⟨front, name, rfl⟩ := List.eq_nil_or_concat' k |>.resolve_left hk
      refine tree.makeFolderBelow hplain (hmade _ hk (List.prefix_refl _)) (fun hmissing parent hhead disk₁ hbelow => ?_) h
      by_cases hfront : front = []
      · -- the folder of the tree is there, so nothing above is missing
        subst hfront
        obtain ⟨left, hreaches⟩ := tree.reaches
        exact absurd hmissing (makeFolder_ne_missing (Path.segments_under hk hplain) (hnames name (by simp)).1 hreaches)
      · have hlength := @Path.length_under_concat base name front hfront hplain
        have hfronts : ∀ n ∈ front, IsPlain n := fun n hn => hplain n (List.mem_append_left _ hn)
        rw [parentsOf_under hfront hplain] at hhead hbelow
        obtain rfl := Option.some.inj hhead
        obtain ⟨hfurnished, htree, -⟩ := ih hfront (fun n hn => hnames n (List.mem_append_left _ hn))
          (fun shorter hne hpre => hmade shorter hne (hpre.trans (List.prefix_append _ _))) (by omega) hbelow hfronts
          (Path.under_ne_nil hfront hfronts)
        exact ⟨hfurnished, htree⟩

theorem makeFolders (hk : k ≠ []) (hnames : ∀ n ∈ k, IsStep n ∧ '/' ∉ n)
    (hmade : ∀ front, front ≠ [] → front <+: k → made (top ++ front))
    (h : disk.makeFolders (under base k) = (.ok (), disk')) :
    Furnished made disk disk' ∧ Tree base top disk' ∧ disk'.isFolder (under base k) := by
  unfold Disk.makeFolders at h
  rw [if_neg (Path.under_ne_nil hk (isPlain_of_steps hnames))] at h
  exact tree.makeFolderBelow_under hk hnames hmade (Nat.le_refl _) h

/-- Where there are folders none are made. -/
theorem makeFolders_of_isFolder (hk : k ≠ []) (hnames : ∀ n ∈ k, IsPlain n)
    (h : disk.isFolder (under base k) = true) : disk.makeFolders (under base k) = (.ok (), disk) := by
  obtain ⟨hpath, hfolder⟩ := (tree.isFolder_iff hk hnames).1 h
  exact makeFolders_of_locate (Path.bare_under hk hnames).1 ((tree.locate_entry hk hnames).2 ⟨hpath, rfl, hfolder⟩)

/-- None are made on the way to the folder of the tree. -/
theorem makeFolders_parent {parent : Text} (hname : IsPlain name)
    (hparent : Path.parent? (under base [name]) = some parent)
    (h : disk.makeFolders parent = (.ok (), disk')) : disk' = disk := by
  have hsegments : Path.segments (under base [name]) = lead base ++ [name] :=
    Path.segments_under (by simp) (by simpa using hname)
  have hmake : ∀ {k : Key}, Path.bare parent = parent → disk.locate true parent = .ok (.entry k .folder) →
      disk' = disk := by
    intro k hbare hlocate
    rw [makeFolders_of_locate hbare hlocate] at h
    exact (congrArg Prod.snd h).symm
  obtain ⟨front, idle, hlead, hidle, ⟨rfl | rfl, -⟩ | ⟨hsteps, more, last, rfl, hlast⟩⟩ :=
    Path.parent?_cases hsegments hname.toIsName hparent
  · exact (congrArg Prod.snd h).symm
  · exact hmake (k := []) rfl (locate_eq_ok_iff.2 ⟨by decide, .idle _ _ _ _ _ rfl (.idle _ _ _ _ _ rfl (.arrived _ _))⟩)
  · have hbare := Path.bare_of_step hsteps hlast
    obtain ⟨left, hreaches⟩ := tree.reaches
    rw [hlead] at hreaches
    by_cases hispath : IsPath parent
    · refine hmake (k := top) hbare (locate_eq_ok_iff.2 ⟨hispath, ?_⟩)
      rw [hsteps]
      exact (hreaches.of_idles hidle).leads_folder
    · have hnil := Path.ne_nil_of_step hsteps hlast
      obtain ⟨fault, hfault, hlocate⟩ := locate_of_not_isPath hnil hispath
      have hrefused : disk.makeFolder parent = .error fault := by
        unfold Disk.makeFolder
        rw [hbare, hlocate]
        rfl
      rw [makeFolders_of_error hnil hfault hrefused] at h
      exact (congrArg Prod.snd h).symm

end Tree

end SiteScaffold.Disk

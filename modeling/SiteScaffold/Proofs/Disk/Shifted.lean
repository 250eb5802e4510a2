/-
An entry is moved with everything below it. What stood under some names below the old place
stands under the same names below the new one, nothing is left at the old place, and all
else stands where it stood (`Shifted`). Moving in a tree to a free place does that whenever
the system takes the two paths (`Tree.shift`), and leaves a tree.
-/
import SiteScaffold.Proofs.Disk.Rearranged

namespace SiteScaffold.Disk

open Path (IsName IsPlain under lead)

variable {disk disk' : Disk} {i j k k' source target top : Key} {e : Entry} {base name : Text} {r : Located}

-- ======================================================= entries put in one by one

/-- The disk with some entries put in below a place. -/
def insertBelow (target : Key) (entries : List (Key × Entry)) (disk : Disk) : Disk :=
  entries.foldl (fun disk (k, e) => disk.insert (target ++ k) e) disk

theorem lookup_insertBelow_off {entries : List (Key × Entry)} (htarget : target ≠ [])
    (hj : ¬ target <+: j) : (insertBelow target entries disk).lookup j = disk.lookup j := by
  induction entries generalizing disk with
  | nil => rfl
  | cons entry entries ih =>
      obtain ⟨k, e⟩ := entry
      have hne : j ≠ target ++ k := fun heq => hj (heq ▸ List.prefix_append target k)
      calc (insertBelow target entries (disk.insert (target ++ k) e)).lookup j
          = (disk.insert (target ++ k) e).lookup j := ih
        _ = disk.lookup j := by rw [lookup_insert (by simp [htarget]), if_neg hne]

/-- Each of them stands where it was put if no two were put at one place. -/
theorem lookup_insertBelow {entries : List (Key × Entry)} (htarget : target ≠ [])
    (hunique : entries.Pairwise fun a b => a.1 ≠ b.1) :
    (insertBelow target entries disk).lookup (target ++ k)
      = (entries.lookup k).or (disk.lookup (target ++ k)) := by
  induction entries generalizing disk with
  | nil => rfl
  | cons entry entries ih =>
      obtain ⟨i, e⟩ := entry
      obtain ⟨hfirst, hunique⟩ := List.pairwise_cons.1 hunique
      have hstep : (insertBelow target entries (disk.insert (target ++ i) e)).lookup (target ++ k)
          = (entries.lookup k).or ((disk.insert (target ++ i) e).lookup (target ++ k)) := ih hunique
      have hinsert : (disk.insert (target ++ i) e).lookup (target ++ k)
          = if k = i then some e else disk.lookup (target ++ k) := by
        rw [lookup_insert (by simp [htarget])]
        simp only [List.append_cancel_left_eq]
      show (insertBelow target entries (disk.insert (target ++ i) e)).lookup (target ++ k) = _
      rw [hstep, hinsert, lookup_cons]
      by_cases hk : k = i
      · have hnone : entries.lookup k = none := by
          refine Option.eq_none_iff_forall_ne_some.2 fun e' he' => ?_
          exact hfirst _ (mem_of_lookup he') hk.symm
        rw [if_pos hk, if_pos hk, hnone]
        rfl
      · rw [if_neg hk, if_neg hk]

/-- What is listed below a place is what stands there. -/
theorem lookup_below (hk : k ≠ []) : (disk.below source).lookup k = disk.lookup (source ++ k) := by
  cases hlookup : disk.lookup (source ++ k) with
  | none =>
      refine Option.eq_none_iff_forall_ne_some.2 fun e he => ?_
      rw [(mem_below_iff.1 (mem_of_lookup he)).2] at hlookup
      cases hlookup
  | some e =>
      cases hbelow : (disk.below source).lookup k with
      | none =>
          have hmem := mem_below_iff.2 ⟨hk, hlookup⟩
          have hne := List.lookup_eq_none_iff.1 hbelow _ hmem
          simp at hne
      | some e' =>
          rw [(mem_below_iff.1 (mem_of_lookup hbelow)).2] at hlookup
          exact hlookup

/-- Below a free place there is nothing. -/
theorem Closed.none_append (h : disk.Closed) (hk : disk.lookup k = none) (t : Key) :
    disk.lookup (k ++ t) = none := by
  by_cases ht : t = []
  · rw [ht, List.append_nil, hk]
  · exact h.below (by simp [hk]) (List.prefix_append k t) (by simp [ht])

/-- A folder can be emptied. -/
theorem Closed.clear (h : disk.Closed) (k : Key) : (disk.clear k).Closed := by
  intro j name e hlookup
  rw [lookup_clear] at hlookup
  split at hlookup
  next => cases hlookup
  next hoff =>
    rw [lookup_clear, if_neg fun hbelow => hoff ⟨hbelow.1.trans (List.prefix_append j [name]), fun heq => ?_⟩]
    · exact h _ _ _ hlookup
    · have hlength := hbelow.1.length_le
      rw [← heq, List.length_append, List.length_singleton] at hlength
      omega

/-- Where nothing stands there is nothing to take out. -/
theorem Closed.erase_of_none (h : disk.Closed) (hk : disk.lookup k = none) : disk.erase k = disk := by
  show Disk.mk _ _ = Disk.mk _ _
  congr 1
  refine List.filter_eq_self.2 fun entry hmem => ?_
  obtain ⟨j, e⟩ := entry
  rw [Bool.not_eq_true', Bool.eq_false_iff]
  intro hwithin
  obtain ⟨t, rfl⟩ := List.isPrefixOf_iff_prefix.1 hwithin
  have hroot : k ≠ [] := by
    rintro rfl
    cases hk
  have hnone := h.none_append hk t
  rw [lookup, if_neg (by simp [hroot]), lookup_of_mem disk.sorted hmem] at hnone
  cases hnone

-- ============================================================ an entry is moved

/-- Whether two disks differ in that what stood at one place and below it went to
another. -/
structure Shifted (source target : Key) (disk disk' : Disk) : Prop where
  there : ∀ k, disk'.lookup (target ++ k) = disk.lookup (source ++ k)
  gone : ∀ k, disk'.lookup (source ++ k) = none
  same : ∀ j, ¬ source <+: j → ¬ target <+: j → disk'.lookup j = disk.lookup j

/-- Whether neither of two places lies at or below the other. -/
def Apart (source target : Key) : Prop := ¬ source <+: target ∧ ¬ target <+: source

/-- What lies below one of two places that are apart is not below the other. -/
theorem Apart.not_prefix (h : Apart source target) (k : Key) : ¬ target <+: source ++ k := by
  intro hpre
  rcases List.prefix_or_prefix_of_prefix hpre (List.prefix_append source k) with hpre | hpre
  · exact h.2 hpre
  · exact h.1 hpre

/-- A place where something stands is apart from a free place that is not in it. -/
theorem apart_of_free (hclosed : disk.Closed) (hsource : disk.lookup (top ++ k) = some e)
    (hfree : disk.lookup (top ++ (k' ++ [name])) = none) (hk' : ¬ k <+: k') :
    Apart (top ++ k) (top ++ (k' ++ [name])) := by
  have hne : k ≠ k' ++ [name] := by
    rintro rfl
    rw [hfree] at hsource
    cases hsource
  refine ⟨fun hpre => ?_, fun hpre => ?_⟩
  · exact (List.prefix_concat_iff.1 ((List.prefix_append_right_inj top).1 hpre)).elim hne hk'
  · obtain ⟨i, rfl⟩ := (List.prefix_append_right_inj top).1 hpre
    rw [← List.append_assoc] at hsource
    by_cases hnil : i = []
    · exact hne (by rw [hnil, List.append_nil])
    · rw [hclosed.above hsource hnil] at hfree
      cases hfree

theorem shifted_relocate (hapart : Apart source target) (hsource : disk.lookup source = some e) :
    Shifted source target disk (disk.relocate source target e) := by
  have hroot : source ≠ [] := fun hnil => hapart.1 (hnil ▸ List.nil_prefix)
  have hroot' : target ≠ [] := fun hnil => hapart.2 (hnil ▸ List.nil_prefix)
  have hfront : ∀ j, (((disk.erase source).erase target).insert target e).lookup j
      = if j = target then some e else if target <+: j then none
        else if source <+: j then none else disk.lookup j := by
    intro j
    rw [lookup_insert hroot', lookup_erase hroot', lookup_erase hroot]
  have hoff : ∀ j, ¬ target <+: j → (disk.relocate source target e).lookup j
      = if source <+: j then none else disk.lookup j := by
    intro j hj
    have hne : j ≠ target := fun heq => hj (heq ▸ List.prefix_refl j)
    show (insertBelow target (disk.below source) _).lookup j = _
    rw [lookup_insertBelow_off hroot' hj, hfront, if_neg hne, if_neg hj]
  refine ⟨fun k => ?_, fun k => ?_, fun j hj hj' => ?_⟩
  · show (insertBelow target (disk.below source) _).lookup (target ++ k) = _
    rw [lookup_insertBelow hroot' (pairwise_below disk source), hfront]
    by_cases hk : k = []
    · have hnone : (disk.below source).lookup [] = none := by
        refine Option.eq_none_iff_forall_ne_some.2 fun e he => ?_
        exact (mem_below_iff.1 (mem_of_lookup he)).1 rfl
      rw [hk, hnone, List.append_nil, List.append_nil, if_pos rfl, hsource]
      rfl
    · rw [lookup_below hk, if_neg (by simpa using hk), if_pos (List.prefix_append target k),
        Option.or_none]
  · rw [hoff _ (hapart.not_prefix k), if_pos (List.prefix_append source k)]
  · rw [hoff j hj', if_neg hj]

namespace Shifted

/-- What stands somewhere after the move stood there before, or at the old place. -/
theorem lookup_before (h : Shifted source target disk disk') (hlookup : disk'.lookup j = some e) :
    (∃ k, j = target ++ k ∧ disk.lookup (source ++ k) = some e)
      ∨ ¬ source <+: j ∧ ¬ target <+: j ∧ disk.lookup j = some e := by
  by_cases htarget : target <+: j
  · obtain ⟨k, rfl⟩ := htarget
    exact .inl ⟨k, rfl, by rw [← h.there, hlookup]⟩
  · by_cases hsource : source <+: j
    · obtain ⟨k, rfl⟩ := hsource
      rw [h.gone] at hlookup
      cases hlookup
    · exact .inr ⟨hsource, htarget, by rw [← h.same j hsource htarget, hlookup]⟩

/-- A folder stands where it stood, but for the one that was moved and those below it. -/
theorem folder (h : Shifted source target disk disk') (hj : ¬ source <+: j)
    (hfree : ∀ k, disk.lookup (target ++ k) = none) (hfolder : disk.lookup j = some .folder) :
    disk'.lookup j = some .folder := by
  rw [h.same j hj ?_]
  · exact hfolder
  · rintro ⟨k, rfl⟩
    rw [hfree] at hfolder
    cases hfolder

theorem closed (h : Shifted source (k ++ [name]) disk disk') (hclosed : disk.Closed)
    (hfree : ∀ i, disk.lookup (k ++ [name] ++ i) = none) (hk : ¬ source <+: k)
    (hfolder : disk.lookup k = some .folder) : disk'.Closed := by
  intro j n e hlookup
  rcases h.lookup_before hlookup with ⟨i, heq, hbefore⟩ | ⟨hsource, htarget, hbefore⟩
  · rcases List.eq_nil_or_concat' i with rfl | ⟨i, x, rfl⟩
    · rw [List.append_nil] at heq
      obtain ⟨rfl, -⟩ := List.append_inj' heq rfl
      exact h.folder hk hfree hfolder
    · rw [← List.append_assoc] at heq hbefore
      obtain ⟨rfl, -⟩ := List.append_inj' heq rfl
      rw [h.there]
      exact hclosed _ _ _ hbefore
  · refine h.folder (fun hpre => ?_) hfree (hclosed _ _ _ hbefore)
    exact hsource (hpre.trans (List.prefix_append j [n]))

end Shifted

-- ============================================== below a folder that keeps its path

/-- Whether a path reaches a folder whatever stands below it: the way there passes nothing of that. -/
structure Steady (base : Text) (top : Key) (disk : Disk) : Prop where
  closed : disk.Closed
  reached : ∀ disk', AgreeAround top disk disk' → ∃ left, Reaches disk' 40 [] (lead base) left top

/-- Whether what is below a place has names that a folder takes. -/
def Named (disk : Disk) (top : Key) : Prop :=
  ∀ k name e, disk.lookup (top ++ (k ++ [name])) = some e → IsStep name ∧ '/' ∉ name

theorem Plain.named (h : Plain disk top) : Named disk top := fun k name e hlookup =>
  ⟨(h k name e hlookup).1, (h k name e hlookup).2.1⟩

theorem Tree.steady (tree : Tree base top disk) : Steady base top disk := ⟨tree.closed, tree.reached⟩

/-- A change of what stands at two places below a place, and below those. -/
theorem agreeAround_pair (hk : k ≠ []) (hk' : k' ≠ [])
    (h : ∀ j, ¬ top ++ k <+: j → ¬ top ++ k' <+: j → disk'.lookup j = disk.lookup j) :
    AgreeAround top disk disk' := by
  refine agreeAround_of fun j hne => ?_
  by_cases hsource : top ++ k <+: j
  · obtain ⟨i, rfl⟩ := hsource
    exact ⟨k ++ i, by simp [hk], List.append_assoc ..⟩
  · by_cases htarget : top ++ k' <+: j
    · obtain ⟨i, rfl⟩ := htarget
      exact ⟨k' ++ i, by simp [hk'], List.append_assoc ..⟩
    · exact absurd (h j hsource htarget) hne

namespace Steady

variable (steady : Steady base top disk)

include steady

theorem reaches : ∃ left, Reaches disk 40 [] (lead base) left top := steady.reached disk (.refl top disk)

theorem folder : disk.lookup top = some .folder := by
  obtain ⟨left, hreaches⟩ := steady.reaches
  exact hreaches.lookup steady.closed (lookup_nil disk)

theorem congr (haround : AgreeAround top disk disk') (hclosed : disk'.Closed) : Steady base top disk' :=
  ⟨hclosed, fun disk'' h => steady.reached disk'' (haround.trans h)⟩

/-- A folder below is reached by the names that lead there. -/
theorem reaches_folder (hnames : ∀ n ∈ k, IsStep n) (hfolder : disk.lookup (top ++ k) = some .folder) :
    ∃ left, Reaches disk 40 [] (lead base ++ k) left (top ++ k) := by
  obtain ⟨left, hreaches⟩ := steady.reaches
  refine ⟨left, hreaches.append (reaches_names fun front n back heq => ⟨hnames n (by simp [heq]), ?_⟩)⟩
  have hsplit : top ++ k = (top ++ (front ++ [n])) ++ back := by simp [heq]
  rw [hsplit] at hfolder
  by_cases hback : back = []
  · rwa [hback, List.append_nil] at hfolder
  · exact steady.closed.above hfolder hback

/-- A path that goes on to a folder and by one more name leads to what stands there. -/
theorem locate (hnames : ∀ n ∈ k, IsStep n ∧ '/' ∉ n) (hname : IsPlain name)
    (hfolder : disk.lookup (top ++ k) = some .folder) :
    disk.locate false (under base (k ++ [name])) = .ok r ↔ IsPath (under base (k ++ [name])) ∧ IsStep name
      ∧ r = disk.place (top ++ (k ++ [name])) := by
  have hplain := Path.isPlain_concat (isPlain_of_steps hnames) hname
  obtain ⟨left, hreaches⟩ := steady.reaches_folder (fun n hn => (hnames n hn).1) hfolder
  have hsegments : Path.segments (under base (k ++ [name])) = (lead base ++ k) ++ [name] := by
    rw [Path.segments_under (by simp) hplain, List.append_assoc]
  rw [locate_name hsegments hname.toIsName]
  refine and_congr_right fun _ => and_congr_right fun _ => ⟨?_, ?_⟩
  · rintro ⟨left', there, hreaches', rfl⟩
    rw [(hreaches.unique hreaches').2, List.append_assoc]
  · rintro rfl
    exact ⟨left, top ++ k, hreaches, by rw [List.append_assoc]⟩

/-- The path of a folder below leads to it. -/
theorem locate_folder (hk : k ≠ []) (hnames : ∀ n ∈ k, IsStep n ∧ '/' ∉ n) (hpath : IsPath (under base k))
    (hfolder : disk.lookup (top ++ k) = some .folder) :
    disk.locate true (under base k) = .ok (.entry (top ++ k) .folder) := by
  obtain ⟨left, hreaches⟩ := steady.reaches_folder (fun n hn => (hnames n hn).1) hfolder
  rw [locate_eq_ok_iff, Path.segments_under hk (isPlain_of_steps hnames)]
  exact ⟨hpath, hreaches.leads_folder⟩

theorem isFolder (hk : k ≠ []) (hnames : ∀ n ∈ k, IsStep n ∧ '/' ∉ n) (hpath : IsPath (under base k))
    (hfolder : disk.lookup (top ++ k) = some .folder) : disk.isFolder (under base k) = true :=
  isFolder_eq_true_iff.2 ⟨_, steady.locate_folder hk hnames hpath hfolder⟩

/-- It is listed. -/
theorem list_eq (hk : k ≠ []) (hnames : ∀ n ∈ k, IsStep n ∧ '/' ∉ n) (hpath : IsPath (under base k))
    (hfolder : disk.lookup (top ++ k) = some .folder) :
    disk.list (under base k) = .ok (disk.children (top ++ k)) := by
  unfold Disk.list find
  rw [steady.locate_folder hk hnames hpath hfolder]
  rfl

/-- A folder is removed with everything below it. -/
theorem removeTree_eq (hk : k ≠ []) (hnames : ∀ n ∈ k, IsStep n ∧ '/' ∉ n) (hpath : IsPath (under base k))
    (hfolder : disk.lookup (top ++ k) = some .folder) :
    disk.removeTree (under base k) = (.ok (), disk.erase (top ++ k)) := by
  have hplain := isPlain_of_steps hnames
  obtain ⟨front, name, rfl⟩ := List.eq_nil_or_concat' k |>.resolve_left hk
  have hname := hplain name (by simp)
  have hfound : ∀ {disk : Disk}, Steady base top disk → disk.lookup (top ++ (front ++ [name])) = some .folder →
      disk.find false (under base (front ++ [name])) = .ok (top ++ (front ++ [name]), .folder) := by
    intro disk steady hfolder
    have habove : disk.lookup (top ++ front) = some .folder := by
      rw [← List.append_assoc] at hfolder
      exact steady.closed _ _ _ hfolder
    have hlocate := (steady.locate (fun n hn => hnames n (List.mem_append_left _ hn)) hname habove).2
      ⟨hpath, (hnames name (by simp)).1, rfl⟩
    rw [find, hlocate, place_of_some hfolder]
    rfl
  have hcleared : ∀ j, ¬ (top ++ (front ++ [name]) <+: j ∧ j ≠ top ++ (front ++ [name])) →
      (disk.clear (top ++ (front ++ [name]))).lookup j = disk.lookup j := fun j hj => by
    rw [lookup_clear, if_neg hj]
  refine removeTree_of_find (hfound steady hfolder) ?_ ⟨name, ?_, hname.toIsName⟩
  · rw [(Path.bare_under hk hplain).1]
    refine hfound (steady.congr (agreeAround_of fun j hne => ?_) ?_) ?_
    · have hbelow := Classical.byContradiction fun h => hne (hcleared j h)
      obtain ⟨⟨t, rfl⟩, -⟩ := hbelow
      exact ⟨front ++ [name] ++ t, by simp, List.append_assoc ..⟩
    · exact steady.closed.clear _
    · rw [hcleared _ (by simp), hfolder]
  · rw [(Path.bare_under hk hplain).1, Path.segments_under hk hplain, ← List.append_assoc, List.getLast?_concat]

/-- An entry is moved to a free place in a folder that is not in it, if the system takes both
paths. -/
theorem shift {name' : Text} (hnames : ∀ n ∈ k, IsStep n ∧ '/' ∉ n) (hnames' : ∀ n ∈ k', IsStep n ∧ '/' ∉ n)
    (hname : IsStep name ∧ '/' ∉ name) (hname' : IsStep name' ∧ '/' ∉ name')
    (hpath : IsPath (under base (k ++ [name]))) (hpath' : IsPath (under base (k' ++ [name'])))
    (hsource : disk.lookup (top ++ (k ++ [name])) = some e) (hfolder : disk.lookup (top ++ k') = some .folder)
    (hfree : disk.lookup (top ++ (k' ++ [name'])) = none) (hk' : ¬ k ++ [name] <+: k') :
    ∃ disk', disk.move (under base (k ++ [name])) (under base (k' ++ [name'])) = .ok disk'
      ∧ Shifted (top ++ (k ++ [name])) (top ++ (k' ++ [name'])) disk disk' ∧ Steady base top disk' := by
  have hplain := Path.isPlain_concat (isPlain_of_steps hnames) ⟨hname.1.isName, hname.2⟩
  have hplain' := Path.isPlain_concat (isPlain_of_steps hnames') ⟨hname'.1.isName, hname'.2⟩
  have hapart : Apart (top ++ (k ++ [name])) (top ++ (k' ++ [name'])) := apart_of_free steady.closed hsource hfree hk'
  have hshifted := shifted_relocate hapart hsource
  have hclosed : (disk.relocate (top ++ (k ++ [name])) (top ++ (k' ++ [name'])) e).Closed := by
    rw [← List.append_assoc top k'] at hshifted hfree ⊢
    exact hshifted.closed steady.closed (steady.closed.none_append hfree)
      (fun hpre => hk' ((List.prefix_append_right_inj top).1 hpre)) hfolder
  refine ⟨_, ?_, hshifted, steady.congr (agreeAround_pair (by simp) (by simp) hshifted.same) hclosed⟩
  have habove : disk.lookup (top ++ k) = some .folder := by
    rw [← List.append_assoc] at hsource
    exact steady.closed _ _ _ hsource
  have hbare : Path.bare (under base (k ++ [name])) = _ ∧ _ := Path.bare_under (by simp) hplain
  have hbare' : Path.bare (under base (k' ++ [name'])) = _ ∧ _ := Path.bare_under (by simp) hplain'
  have hlocate : disk.locate false (under base (k ++ [name])) = .ok (.entry (top ++ (k ++ [name])) e) :=
    (steady.locate hnames (hplain name (by simp)) habove).2 ⟨hpath, hname.1, (place_of_some hsource).symm⟩
  have hlocate' : disk.locate false (under base (k' ++ [name'])) = .ok (.free (top ++ (k' ++ [name'])) false) :=
    (steady.locate hnames' (hplain' name' (by simp)) hfolder).2
      ⟨hpath', hname'.1, (place_of_none hfree).symm⟩
  have hwithin : Key.within (top ++ (k ++ [name])) (top ++ (k' ++ [name'])) = false := by
    rw [Bool.eq_false_iff]
    exact fun h => hapart.1 (List.isPrefixOf_iff_prefix.1 h)
  unfold Disk.move find
  rw [hbare.1, hbare'.1, hbare.2, hbare'.2, hlocate, hlocate']
  show (if Key.within (top ++ (k ++ [name])) (top ++ (k' ++ [name'])) = true then Except.error Fault.invalid
    else .ok (disk.relocate (top ++ (k ++ [name])) (top ++ (k' ++ [name'])) e)) = _
  rw [if_neg (by simp [hwithin])]

end Steady

namespace Tree

variable (tree : Tree base top disk)

include tree

/-- A tree in which an entry went to a free place is still one. -/
theorem shifted (hfolder : disk.lookup (top ++ k') = some .folder) (hk : k ≠ []) (hk' : ¬ k <+: k')
    (hfree : disk.lookup (top ++ (k' ++ [name])) = none) (hstep : IsStep name) (hslash : '/' ∉ name)
    (h : Shifted (top ++ k) (top ++ (k' ++ [name])) disk disk') : Tree base top disk' := by
  have hempty : ∀ i, disk.lookup (top ++ k' ++ [name] ++ i) = none := by
    intro i
    rw [List.append_assoc top]
    exact tree.closed.none_append hfree i
  refine tree.congr (agreeAround_pair hk (by simp) h.same) ?_ fun i n e hlookup => ?_
  · rw [← List.append_assoc] at h
    exact h.closed tree.closed hempty (fun hpre => hk' ((List.prefix_append_right_inj top).1 hpre)) hfolder
  · rcases h.lookup_before hlookup with ⟨j, heq, hbefore⟩ | ⟨-, -, hbefore⟩
    · rcases List.eq_nil_or_concat' j with rfl | ⟨j, x, rfl⟩
      · rw [List.append_nil] at heq hbefore
        obtain ⟨-, hn⟩ := List.append_inj' (List.append_cancel_left heq) rfl
        obtain rfl : n = name := by simpa using hn
        obtain ⟨front, last, rfl⟩ := List.eq_nil_or_concat' k |>.resolve_left hk
        exact ⟨hstep, hslash, (tree.plain front last e hbefore).2.2⟩
      · rw [List.append_assoc, ← List.append_assoc _ j] at heq
        obtain ⟨-, hn⟩ := List.append_inj' (List.append_cancel_left heq) rfl
        obtain rfl : n = x := by simpa using hn
        rw [List.append_assoc, ← List.append_assoc k] at hbefore
        exact tree.plain (k ++ j) n e hbefore
    · exact tree.plain i n e hbefore

/-- An entry is moved to a free place in a folder that is not in it, if the system takes
both paths. -/
theorem shift (hk : k ≠ []) (hpath : IsPath (under base k)) (hpath' : IsPath (under base (k' ++ [name])))
    (hsource : disk.lookup (top ++ k) = some e) (hfolder : disk.lookup (top ++ k') = some .folder)
    (hfree : disk.lookup (top ++ (k' ++ [name])) = none) (hk' : ¬ k <+: k') (hstep : IsStep name)
    (hslash : '/' ∉ name) :
    ∃ disk', disk.move (under base k) (under base (k' ++ [name])) = .ok disk'
      ∧ Shifted (top ++ k) (top ++ (k' ++ [name])) disk disk' ∧ Tree base top disk' := by
  have hsteps := tree.plain.isStep tree.closed hsource
  have hsteps' := tree.plain.isStep tree.closed hfolder
  obtain ⟨front, last, rfl⟩ := List.eq_nil_or_concat' k |>.resolve_left hk
  obtain ⟨disk', hmove, hshifted, -⟩ := tree.steady.shift
    (fun n hn => hsteps n (List.mem_append_left _ hn)) hsteps' (hsteps last (by simp)) ⟨hstep, hslash⟩
    hpath hpath' hsource hfolder hfree hk'
  exact ⟨disk', hmove, hshifted, tree.shifted hfolder hk hk' hfree hstep hslash hshifted⟩

end Tree

end SiteScaffold.Disk

/-
Where a path leads in a tree, however it is spelled. Steps that are no names lead nowhere, so
a path that does not go up leads to what stands under its names (`Tree.locate_spelled`,
`Tree.entry_spelled`). What removing a tree by such a path takes away lies at the place of
the names or below it (`Tree.removeTree_off`); it takes away all of it if the path ends in a
name (`Tree.removeTree_spelled`).
-/
import SiteScaffold.Proofs.Disk.Shifted
import SiteScaffold.Proofs.Path.Spelled

namespace SiteScaffold.Disk

open Path (IsName IsPlain lead namesOf)

variable {disk disk' : Disk} {here j k top : Key} {e : Entry} {follow : Bool} {links : Nat}
  {steps : List Text} {base path : Text}

-- ===================================================================== along the steps

/-- Steps to a folder by its names, with others between that lead nowhere. -/
theorem Plain.leads_folder (hplain : Plain disk here) (hclosed : disk.Closed)
    (hup : "..".toList ∉ steps) (hfolder : disk.lookup (here ++ namesOf steps) = some .folder) :
    Leads disk follow links here steps (.entry (here ++ namesOf steps) .folder) := by
  induction steps generalizing here with
  | nil =>
      rw [show namesOf [] = [] from rfl, List.append_nil]
      exact .arrived _ _
  | cons step steps ih =>
      obtain ⟨hstep, hup⟩ := not_or.1 (mt List.mem_cons.2 hup)
      by_cases hidle : Path.isIdle step
      · rw [Path.namesOf_idle hidle] at hfolder ⊢
        exact .idle _ _ _ _ _ hidle (ih hplain hup hfolder)
      · have hbelow : Plain disk (here ++ [step]) := fun k name e he =>
          hplain (step :: k) name e (by simpa using he)
        rw [Path.namesOf_name hidle, List.append_cons] at hfolder ⊢
        have hfirst : disk.lookup (here ++ [step]) = some .folder := by
          by_cases hnil : namesOf steps = []
          · rw [hnil, List.append_nil] at hfolder
            exact hfolder
          · exact hclosed.above hfolder hnil
        exact .folder _ _ _ _ _ (hplain [] step _ hfirst).1 hfirst (ih hbelow hup hfolder)

/-- An entry that such steps lead to stands under their names. -/
theorem Plain.eq_of_leads (hplain : Plain disk here) (hhere : disk.lookup here = some .folder)
    (hup : "..".toList ∉ steps) (h : Leads disk follow links here steps (.entry k e)) :
    k = here ++ namesOf steps ∧ disk.lookup k = some e := by
  induction steps generalizing here with
  | nil =>
      cases h
      exact ⟨(List.append_nil _).symm, hhere⟩
  | cons step steps ih =>
      obtain ⟨hstep, hup⟩ := not_or.1 (mt List.mem_cons.2 hup)
      have hbelow : Plain disk (here ++ [step]) := fun k name e he =>
        hplain (step :: k) name e (by simpa using he)
      cases h with
      | idle _ _ _ _ _ hidle hrest =>
          rw [Path.namesOf_idle hidle]
          exact ih hplain hhere hup hrest
      | up _ _ _ _ hrest => exact absurd rfl hstep
      | folder _ _ _ _ _ hname hfolder hrest =>
          rw [Path.namesOf_name (by simp [hname.idle]), List.append_cons]
          exact ih hbelow hfolder hup hrest
      | file _ _ _ x c hname hfile =>
          rw [Path.namesOf_name (by simp [hname.idle])]
          exact ⟨rfl, hfile⟩
      | link _ _ _ target hname hlink _ =>
          have hkind := (hplain [] step _ hlink).2.2
          cases hkind
      | followed _ _ _ target _ _ hname hlink _ _ _ =>
          have hkind := (hplain [] step _ hlink).2.2
          cases hkind

-- ========================================================================= in a tree

/-- A folder is removed at the place that the path leads to without the slashes it ends in. -/
theorem removeFolder_eq_ok (h : disk.removeFolder path = .ok disk') :
    ∃ k, disk.find false (Path.bare path) = .ok (k, .folder) ∧ disk' = disk.erase k := by
  unfold removeFolder at h
  cases hfind : disk.find false (Path.bare path) with
  | error fault =>
      rw [hfind] at h
      cases h
  | ok found =>
      obtain ⟨k, e⟩ := found
      rw [hfind] at h
      cases e with
      | file x c => cases h
      | link target => cases h
      | folder =>
          have hcases : (if (Path.segments (Path.bare path)).getLast? = some ".".toList then .error .invalid
              else if (Path.segments (Path.bare path)).getLast? = some "..".toList || !(disk.below k).isEmpty then
                .error .notEmpty
              else .ok (disk.erase k)) = Except.ok (ε := Fault) disk' := h
          split at hcases
          next => cases hcases
          next =>
            split at hcases
            next => cases hcases
            next =>
              cases hcases
              exact ⟨k, rfl, rfl⟩

theorem holds_iff_find : disk.holds path = true ↔ ∃ k e, disk.find true path = .ok (k, e) := by
  unfold holds entry?
  cases hfind : disk.find true path with
  | error fault =>
      refine iff_of_false Bool.false_ne_true ?_
      rintro ⟨k, e, heq⟩
      cases heq
  | ok found => exact iff_of_true rfl ⟨found.1, found.2, rfl⟩

theorem all_empty_of_namesOf (h : namesOf steps ≠ []) : steps.all (· = []) = false := by
  obtain ⟨name, hname⟩ := List.exists_mem_of_ne_nil _ h
  obtain ⟨hmem, hidle⟩ := List.mem_filter.1 hname
  rw [List.all_eq_false]
  refine ⟨name, hmem, ?_⟩
  intro hempty
  rw [of_decide_eq_true hempty] at hidle
  cases hidle

namespace Tree

variable (tree : Tree base top disk) (hbelow : Path.Descends path)

include tree hbelow

/-- The path of a folder leads to it. -/
theorem find_spelled (hpath : IsPath (Path.join base path))
    (hfolder : disk.lookup (top ++ namesOf (Path.segments path)) = some .folder) :
    disk.find follow (Path.join base path) = .ok (top ++ namesOf (Path.segments path), .folder) := by
  obtain ⟨left, hreaches⟩ := tree.reaches
  have hleads : Leads disk follow left top (Path.segments path) (.entry _ .folder) :=
    tree.plain.leads_folder tree.closed hbelow.up hfolder
  have hlocate : disk.locate follow (Path.join base path)
      = .ok (.entry (top ++ namesOf (Path.segments path)) .folder) := by
    rw [locate_eq_ok_iff, hbelow.segments_join]
    exact ⟨hpath, hreaches.leads hleads (Text.split_ne_nil '/' path)⟩
  rw [find, hlocate]
  rfl

/-- An entry that a path leads to stands under its names. -/
theorem entry_spelled (h : disk.find follow (Path.join base path) = .ok (k, e)) :
    k = top ++ namesOf (Path.segments path) ∧ disk.lookup k = some e := by
  have hlocate : disk.locate follow (Path.join base path) = .ok (.entry k e) := by
    unfold find at h
    cases hlocate : disk.locate follow (Path.join base path) with
    | error fault =>
        rw [hlocate] at h
        cases h
    | ok r =>
        rw [hlocate] at h
        match r, h with
        | .entry k e, h =>
            cases h
            rfl
  rw [locate_eq_ok_iff, hbelow.segments_join] at hlocate
  obtain ⟨left, there, hreaches, hleads⟩ := hlocate.2.split (all_empty_of_namesOf hbelow.names)
  obtain ⟨left', hreaches'⟩ := tree.reaches
  obtain ⟨-, rfl⟩ := hreaches'.unique hreaches
  exact tree.plain.eq_of_leads tree.folder hbelow.up hleads

/-- A folder that a path with a name at its end leads to is removed. -/
theorem removeTree_spelled (hpath : IsPath (Path.join base path))
    (hlast : (Path.segments (Path.bare path)).getLast? ≠ some ['.'])
    (hfolder : disk.lookup (top ++ namesOf (Path.segments path)) = some .folder) :
    disk.removeTree (Path.join base path) = (.ok (), disk.erase (top ++ namesOf (Path.segments path))) := by
  obtain ⟨hlead, hne⟩ := hbelow.bare_prefix base
  have hpath' : IsPath (Path.join base (Path.bare path)) := hpath.of_prefix hlead hne
  have hstill : (disk.clear (top ++ namesOf (Path.segments path))).lookup
      (top ++ namesOf (Path.segments (Path.bare path))) = some .folder := by
    rw [Path.namesOf_bare hbelow.names, lookup_clear, if_neg (by simp)]
    exact hfolder
  refine removeTree_of_find (tree.find_spelled hbelow hpath hfolder) ?_ (hbelow.exists_last base hlast)
  have hfound : (disk.clear (top ++ namesOf (Path.segments path))).find false (Path.join base (Path.bare path))
      = .ok (_, .folder) := tree.cleared.find_spelled hbelow.bare hpath' hstill
  rw [hbelow.bare_join, hfound, Path.namesOf_bare hbelow.names]

/-- Removing a tree by a path takes away nothing but what stands under its names. -/
theorem removeTree_off (hj : ¬ top ++ namesOf (Path.segments path) <+: j) :
    (disk.removeTree (Path.join base path)).2.lookup j = disk.lookup j := by
  have hclear : (disk.clear (top ++ namesOf (Path.segments path))).lookup j = disk.lookup j := by
    rw [lookup_clear, if_neg fun h => hj h.1]
  have herase : ∀ disk : Disk, (disk.erase (top ++ namesOf (Path.segments path))).lookup j = disk.lookup j := by
    intro disk
    rw [lookup_erase (by simp [hbelow.names]), if_neg hj]
  unfold Disk.removeTree
  cases hfind : disk.find false (Path.join base path) with
  | error fault => rfl
  | ok found =>
      obtain ⟨k, e⟩ := found
      obtain ⟨rfl, -⟩ := tree.entry_spelled hbelow hfind
      cases e with
      | file x c => rfl
      | link target => exact herase disk
      | folder =>
          dsimp only
          cases hremove : (disk.clear (top ++ namesOf (Path.segments path))).removeFolder (Path.join base path) with
          | error fault =>
              cases fault <;> exact hclear
          | ok disk' =>
              obtain ⟨k, hfound, rfl⟩ := removeFolder_eq_ok hremove
              rw [hbelow.bare_join] at hfound
              obtain ⟨rfl, -⟩ := tree.cleared.entry_spelled hbelow.bare hfound
              rw [Path.namesOf_bare hbelow.names]
              show (Disk.erase _ _).lookup j = _
              rw [herase, hclear]

end Tree

end SiteScaffold.Disk

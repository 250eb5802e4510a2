/-
Paths to which there is nothing, and files. A path is vacant if it leads to no entry,
not even to a link, however many folders of some names are made (`Vacant`). That says
more than that nothing is there now: the folders above may still be missing, and once
they are made the path must not lead to something that was out of its reach before.

Vacancy lasts while folders are made and while files come and go under other names
(`Vacant.congr`). A path at which nothing is turns out to be vacant unless a link on the
way leads nowhere (`vacant_of_holds`).
-/
import SiteScaffold.Proofs.Disk.Growth

namespace SiteScaffold.Disk

open Path (IsName)

variable {disk disk' : Disk} {j k here there : Key} {e : Entry} {follow : Bool}
  {links left : Nat} {steps names : List Text} {name path : Text} {r : Located}

-- ==================================================================== vacant paths

/-- Whether a path leads to no entry, however many folders of these names are made. -/
def Vacant (names : List Text) (disk : Disk) (path : Text) : Prop :=
  ∀ disk', Grown names disk disk' → ∀ k e, disk'.locate false path ≠ .ok (.entry k e)

theorem Vacant.grown (h : Vacant names disk path) (hgrown : Grown names disk disk') :
    Vacant names disk' path :=
  fun _ hgrown' => h _ (hgrown.trans hgrown')

theorem unfollowed (h : disk.locate true path = .ok (.entry k e)) :
    ∃ k' e', disk.locate false path = .ok (.entry k' e') := by
  obtain ⟨hispath, hleads⟩ := locate_eq_ok_iff.1 h
  obtain ⟨k', e', hleads'⟩ := hleads.unfollowed
  exact ⟨k', e', locate_eq_ok_iff.2 ⟨hispath, hleads'⟩⟩

theorem holds_iff : disk.holds path = true ↔ ∃ k e, disk.locate true path = .ok (.entry k e) := by
  unfold holds entry? find
  cases hlocate : disk.locate true path with
  | error fault =>
      refine iff_of_false Bool.false_ne_true ?_
      rintro ⟨k, e, heq⟩
      cases heq
  | ok r =>
      cases r with
      | slashed k =>
          refine iff_of_false Bool.false_ne_true ?_
          rintro ⟨k, e, heq⟩
          cases heq
      | free k b =>
          refine iff_of_false Bool.false_ne_true ?_
          rintro ⟨k, e, heq⟩
          cases heq
      | entry k e => exact iff_of_true rfl ⟨k, e, rfl⟩

/-- Nothing is there. -/
theorem Vacant.holds (h : Vacant names disk path) (hclosed : disk.Closed) : disk.holds path = false := by
  rw [Bool.eq_false_iff]
  intro hholds
  obtain ⟨k, e, hlocate⟩ := holds_iff.1 hholds
  obtain ⟨k', e', hentry⟩ := unfollowed hlocate
  exact h disk (.refl hclosed) k' e' hentry

/-- At a place where something stands, or which has none of the names, no folder is
made. -/
theorem Grown.lookup_eq (h : Grown names disk disk')
    (hplace : disk.lookup k ≠ none ∨ ∀ name ∈ names, k.getLast? ≠ some name) :
    disk'.lookup k = disk.lookup k := by
  rcases hplace with hsome | hnew
  · obtain ⟨e, he⟩ := Option.ne_none_iff_exists'.1 hsome
    rw [he]
    exact h.kept k e he
  · exact h.lookup_of_new hnew

/-- A disk that has grown after a change, taken back to before the change. -/
theorem exists_grown_before (hchange : Change k disk disk') (hclosed : disk.Closed)
    (hplace : disk'.lookup k ≠ none ∨ ∀ name ∈ names, k.getLast? ≠ some name) {grown' : Disk}
    (h : Grown names disk' grown') :
    ∃ grown, Grown names disk grown ∧ grown.lookup k = disk.lookup k
      ∧ ∀ j, j ≠ k → grown.lookup j = grown'.lookup j := by
  have hk : grown'.lookup k = disk'.lookup k := h.lookup_eq hplace
  have hleaf : grown'.IsLeaf k := by
    intro e he
    rw [hk] at he
    exact hchange.leaf' e he
  obtain ⟨grown, hat, hoff⟩ : ∃ grown : Disk, grown.lookup k = disk.lookup k
      ∧ ∀ j, j ≠ k → grown.lookup j = grown'.lookup j := by
    cases hlookup : disk.lookup k with
    | some e =>
        refine ⟨grown'.insert k e, ?_, fun j hj => ?_⟩
        · rw [lookup_insert hchange.root, if_pos rfl]
        · rw [lookup_insert hchange.root, if_neg hj]
    | none =>
        refine ⟨grown'.erase k, ?_, fun j hj => ?_⟩
        · rw [lookup_erase hchange.root, if_pos (List.prefix_refl k)]
        · rw [lookup_erase hchange.root]
          by_cases hpre : k <+: j
          · rw [if_pos hpre, h.closed.below hleaf.ne_folder hpre hj]
          · rw [if_neg hpre]
  refine ⟨grown, ⟨fun j e hj => ?_, fun j e hj => ?_, fun j x e hj => ?_⟩, hat, hoff⟩
  · by_cases heq : j = k
    · rw [heq, hat, ← heq]
      exact hj
    · rw [hoff j heq]
      rw [← hchange.same j heq] at hj
      exact h.kept j e hj
  · by_cases heq : j = k
    · rw [heq, hat, ← heq] at hj
      exact .inl hj
    · rw [hoff j heq] at hj
      rw [← hchange.same j heq]
      exact h.new j e hj
  · have hfolder : grown'.lookup j = some .folder := by
      by_cases heq : j ++ [x] = k
      · rw [heq, hat, ← heq] at hj
        have hparent := hclosed _ _ _ hj
        rw [← hchange.same j (by rintro rfl; simp at heq)] at hparent
        exact h.kept _ _ hparent
      · rw [hoff _ heq] at hj
        exact h.closed _ _ _ hj
    rw [hoff j ?_]
    · exact hfolder
    · rintro rfl
      exact hleaf.ne_folder hfolder

/-- A vacant path stays vacant when something changes under another name, or goes. -/
theorem Vacant.congr (hpath : Path.segments path = steps ++ [name]) (hname : IsName name)
    (hchange : Change k disk disk') (hclosed : disk.Closed)
    (hplace : disk'.lookup k ≠ none ∨ ∀ name ∈ names, k.getLast? ≠ some name)
    (hother : k.getLast? ≠ some name ∨ disk.lookup k ≠ none ∨ disk'.lookup k = none)
    (h : Vacant names disk path) : Vacant names disk' path := by
  intro grown' hgrown' j e hlocate
  obtain ⟨grown, hgrown, hat, hoff⟩ := exists_grown_before hchange hclosed hplace hgrown'
  have hk : grown'.lookup k = disk'.lookup k := hgrown'.lookup_eq hplace
  obtain ⟨hispath, hstep, left, there, hreaches, hfound⟩ := (locate_name hpath hname).1 hlocate
  have hleaf : grown'.IsLeaf k := by
    intro e he
    rw [hk] at he
    exact hchange.leaf' e he
  have hagree : AgreeOff k grown' grown := by
    intro i hi
    refine hoff i ?_
    rintro rfl
    exact hi (List.prefix_refl i)
  obtain ⟨hreaches', -⟩ := hreaches.congr hagree hleaf (by rw [List.prefix_nil]; exact hchange.root)
  have hsome : ∃ e, grown.lookup (there ++ [name]) = some e := by
    cases hlookup : grown'.lookup (there ++ [name]) with
    | none =>
        rw [place_of_none hlookup] at hfound
        cases hfound
    | some e =>
        by_cases heq : there ++ [name] = k
        · have hlast : k.getLast? = some name := by
            rw [← heq]
            exact List.getLast?_concat
          rcases hother with hother | hother | hother
          · exact absurd hlast hother
          · rw [heq, hat]
            exact Option.ne_none_iff_exists'.1 hother
          · rw [heq, hk, hother] at hlookup
            cases hlookup
        · exact ⟨e, by rw [hoff _ heq, hlookup]⟩
  obtain ⟨e', he'⟩ := hsome
  refine h grown hgrown (there ++ [name]) e' ((locate_name hpath hname).2 ⟨hispath, hstep, left, there, hreaches', ?_⟩)
  exact (place_of_some he').symm

-- ============================================================ where nothing is at first

/-- A way of one name goes over a folder or over a link. -/
theorem Reaches.single (hname : IsName name) (h : Reaches disk links here [name] left there) :
    disk.lookup (here ++ [name]) = some .folder ∧ left = links ∧ there = here ++ [name]
      ∨ ∃ target, disk.lookup (here ++ [name]) = some (.link target) := by
  cases h with
  | idle hidle _ =>
      rw [hname.idle] at hidle
      cases hidle
  | up _ => exact absurd rfl hname.up
  | folder _ hfolder hrest =>
      cases hrest
      exact .inl ⟨hfolder, rfl, rfl⟩
  | followed _ hlink _ _ => exact .inr ⟨_, hlink⟩

theorem all_append_single (hname : IsName name) (steps : List Text) :
    (steps ++ [name]).all (· = []) = false := by
  rw [List.all_append, all_single hname, Bool.and_false]

/-- An entry that is no folder was there before. -/
theorem Grown.lookup_of_ne_folder (h : Grown names disk disk') (hk : disk'.lookup k = some e)
    (hne : e ≠ .folder) : disk.lookup k = some e :=
  (h.new k e hk).resolve_right fun hnew => hne hnew.1

theorem Reaches.isStep (hname : IsName name) (h : Reaches disk links here [name] left there) :
    IsStep name := by
  cases h with
  | idle hidle _ =>
      rw [hname.idle] at hidle
      cases hidle
  | up _ => exact absurd rfl hname.up
  | folder hstep _ _ => exact hstep
  | followed hstep _ _ _ => exact hstep

/-- A folder that a name reaches after folders were made was reached before, or there is
nothing at it and below it before. A link has to lead somewhere before. -/
theorem Reaches.before (hclosed : disk.Closed) (hgrown : Grown names disk disk')
    (hname : IsName name)
    (hlink : ∀ target, disk.lookup (here ++ [name]) = some (.link target) →
      ∃ k e, Leads disk true links here [name] (.entry k e))
    (h : Reaches disk' links here [name] left there) :
    Reaches disk links here [name] left there ∨ ∀ j, there <+: j → disk.lookup j = none := by
  rcases h.single hname with ⟨hfolder, rfl, rfl⟩ | ⟨target, hnow⟩
  · cases hentry : disk.lookup (here ++ [name]) with
    | some e =>
        rw [hgrown.kept _ _ hentry] at hfolder
        cases hfolder
        exact .inl (.folder (h.isStep hname) hentry .arrived)
    | none =>
        refine .inr fun j hj => ?_
        by_cases heq : j = here ++ [name]
        · rw [heq, hentry]
        · exact hclosed.below (by simp [hentry]) hj heq
  · -- the link led somewhere before, so to the folder that it leads to now
    obtain ⟨k, e, hleads⟩ := hlink target (hgrown.lookup_of_ne_folder hnow (by simp))
    have hsame := h.leads_folder.unique (hleads.mono hgrown.kept)
    cases hsame
    obtain ⟨left', hreaches⟩ := hleads.reaches
    obtain ⟨rfl, -⟩ := h.unique (hreaches.mono hgrown.kept)
    exact .inl hreaches

theorem ne_getLast? (h : name ∉ names) : ∀ x ∈ names, (there ++ [name]).getLast? ≠ some x := by
  intro x hx hlast
  rw [List.getLast?_concat] at hlast
  cases hlast
  exact h hx

/-- Below a folder that was made there are only folders that were made. -/
theorem not_leads_below (hgrown : Grown names disk disk') (hname : IsName name) (hnew : name ∉ names)
    (hsteps : ∀ step ∈ steps, IsName step) (hnone : ∀ j, there <+: j → disk.lookup j = none) :
    ¬ Leads disk' false links there (steps ++ [name]) (.entry k e) := by
  intro h
  induction steps generalizing links there with
  | nil =>
      obtain ⟨-, hplace⟩ := (leads_name hname).1 h
      have hlookup : disk'.lookup (there ++ [name]) = disk.lookup (there ++ [name]) :=
        hgrown.lookup_of_new (ne_getLast? hnew)
      rw [hnone _ (List.prefix_append there [name])] at hlookup
      rw [place_of_none hlookup] at hplace
      cases hplace
  | cons step steps ih =>
      have hstep := hsteps step (List.mem_cons_self ..)
      rw [List.cons_append, ← List.singleton_append] at h
      obtain ⟨left, next, hreaches, hrest⟩ := h.split
        (all_append_single hname steps)
      rcases hreaches.single hstep with ⟨-, rfl, rfl⟩ | ⟨target, hlink⟩
      · exact ih (fun s hs => hsteps s (List.mem_cons_of_mem _ hs))
          (fun j hj => hnone j ((List.prefix_append there [step]).trans hj)) hrest
      · have hlookup := hgrown.lookup_of_ne_folder hlink (by simp)
        rw [hnone _ (List.prefix_append there [step])] at hlookup
        cases hlookup

/-- Names on from a folder lead to no entry, whatever folders are made, if they led to
none before and every link on the way leads somewhere. -/
theorem not_leads_of_grown {done : List Text} (hclosed : disk.Closed) (hgrown : Grown names disk disk')
    (hname : IsName name) (hnew : name ∉ names) (hsteps : ∀ step ∈ steps, IsName step)
    (hreaches : Reaches disk 40 [] done links here)
    (hlinks : ∀ mid step rest, steps ++ [name] = mid ++ step :: rest → ∀ k target,
      Leads disk false 40 [] (done ++ (mid ++ [step])) (.entry k (.link target)) →
      ∃ k' e', Leads disk true 40 [] (done ++ (mid ++ [step])) (.entry k' e'))
    (hnone : ∀ k e, ¬ Leads disk true 40 [] (done ++ (steps ++ [name])) (.entry k e)) :
    ¬ Leads disk' false links here (steps ++ [name]) (.entry k e) := by
  intro h
  induction steps generalizing done links here with
  | nil =>
      obtain ⟨hstep, hplace⟩ := (leads_name hname).1 h
      have hlookup : disk'.lookup (here ++ [name]) = disk.lookup (here ++ [name]) :=
        hgrown.lookup_of_new (ne_getLast? hnew)
      cases hentry : disk.lookup (here ++ [name]) with
      | none =>
          rw [hentry] at hlookup
          rw [place_of_none hlookup] at hplace
          cases hplace
      | some e =>
          cases e with
          | folder =>
              have hleads : Leads disk true links here [name] (.entry (here ++ [name]) .folder) :=
                .folder _ _ _ _ _ hstep hentry (.arrived _ _)
              exact hnone _ _ (hreaches.leads hleads (by simp))
          | file x c =>
              have hleads : Leads disk true links here [name] (.entry (here ++ [name]) (.file x c)) :=
                .file _ _ _ _ _ hstep hentry
              exact hnone _ _ (hreaches.leads hleads (by simp))
          | link target =>
              have hleads : Leads disk false links here [name] (.entry (here ++ [name]) (.link target)) :=
                .link _ _ _ _ hstep hentry rfl
              obtain ⟨k', e', hfollowed⟩ := hlinks [] name [] rfl _ target
                (hreaches.leads hleads (by simp))
              exact hnone _ _ hfollowed
  | cons step steps ih =>
      have hisname := hsteps step (List.mem_cons_self ..)
      rw [List.cons_append, ← List.singleton_append] at h
      obtain ⟨left, next, hnext, hrest⟩ := h.split
        (all_append_single hname steps)
      have hbefore := hnext.before hclosed hgrown hisname fun target hlink => by
        have hstep := hnext.isStep hisname
        have hleads : Leads disk false links here [step] (.entry (here ++ [step]) (.link target)) :=
          .link _ _ _ _ hstep hlink rfl
        obtain ⟨k', e', hfollowed⟩ := hlinks [] step (steps ++ [name]) rfl _ target
          (hreaches.leads hleads (by simp))
        obtain ⟨links', here', hreaches', hfollowed⟩ := hfollowed.split (all_single hisname)
        obtain ⟨rfl, rfl⟩ := hreaches.unique hreaches'
        exact ⟨k', e', hfollowed⟩
      rcases hbefore with hbefore | hbelow
      · refine ih (fun s hs => hsteps s (List.mem_cons_of_mem _ hs)) (hreaches.append hbefore)
          (fun mid s rest heq k target hlink => ?_) (fun k e hleads => ?_) hrest
        · have hfollowed := hlinks (step :: mid) s rest (by rw [List.cons_append, heq]; rfl) k target
          simp only [List.append_assoc, List.cons_append, List.nil_append] at hfollowed hlink ⊢
          exact hfollowed hlink
        · refine hnone k e ?_
          simpa only [List.append_assoc, List.cons_append, List.nil_append] using hleads
      · exact not_leads_below hgrown hname hnew (fun s hs => hsteps s (List.mem_cons_of_mem _ hs))
          hbelow hrest

theorem IsPath.of_prefix {path' : Text} (h : IsPath path) (hpre : path' <+: path)
    (hne : path' ≠ []) : IsPath path' where
  noNul := fun hmem => h.noNul (hpre.subset hmem)
  not_nil := hne
  size := by
    obtain ⟨t, rfl⟩ := hpre
    have hsize := h.size
    rw [Text.byteSize_append] at hsize
    omega

/-- Whether a link stands at the path that leads nowhere. -/
def Dangles (disk : Disk) (path : Text) : Prop :=
  (∃ k target, disk.locate false path = .ok (.entry k (.link target))) ∧ disk.holds path = false

/-- No link dangles where there are none. -/
theorem not_dangles (h : ∀ entry ∈ disk.entries, entry.2.isFile || entry.2.isFolder) :
    ¬ disk.Dangles path := by
  rintro ⟨⟨k, target, hlocate⟩, -⟩
  have hlookup := (locate_eq_ok_iff.1 hlocate).2.lookup_of_ne (by simp)
  unfold lookup at hlookup
  by_cases hk : k = []
  · rw [if_pos hk] at hlookup
    cases hlookup
  · rw [if_neg hk] at hlookup
    have hlink := h _ (mem_of_lookup hlookup)
    cases hlink

/-- A path is vacant if nothing is there and if no link dangles on the way, from a folder
that is there on. -/
theorem vacant_of_holds {done : List Text} {ways : List Text} (hclosed : disk.Closed)
    (hpath : Path.segments path = done ++ (steps ++ [name])) (hname : IsName name)
    (hnew : name ∉ names) (hsteps : ∀ step ∈ steps, IsName step)
    (hreaches : Reaches disk 40 [] done links here)
    (hways : ∀ mid step rest, steps ++ [name] = mid ++ step :: rest → ∃ way ∈ ways,
      way <+: path ∧ Path.segments way = done ++ (mid ++ [step]))
    (hlinks : ∀ way ∈ ways, ¬ disk.Dangles way) (hholds : disk.holds path = false) :
    Vacant names disk path := by
  intro disk' hgrown k e hlocate
  obtain ⟨hispath, hleads⟩ := locate_eq_ok_iff.1 hlocate
  rw [hpath] at hleads
  obtain ⟨links', here', hreaches', hrest⟩ := hleads.split (all_append_single hname steps)
  obtain ⟨rfl, rfl⟩ := (hreaches.mono hgrown.kept).unique hreaches'
  refine not_leads_of_grown hclosed hgrown hname hnew hsteps hreaches
    (fun mid step rest heq k target hlink => ?_) (fun k e hfollowed => ?_) hrest
  · obtain ⟨way, hmem, hpre, hsegments⟩ := hways mid step rest heq
    have hstep : IsName step := by
      have hstep : step ∈ steps ++ [name] := by
        rw [heq]
        simp
      rcases List.mem_append.1 hstep with hstep | hstep
      · exact hsteps step hstep
      · rw [List.mem_singleton.1 hstep]
        exact hname
    have hisway : IsPath way := by
      rw [← List.append_assoc] at hsegments
      exact hispath.of_prefix hpre (Path.ne_nil_of_segments hsegments hstep)
    rw [← hsegments] at hlink ⊢
    by_cases hway : disk.holds way = true
    · obtain ⟨k', e', hlocate'⟩ := holds_iff.1 hway
      exact ⟨k', e', (locate_eq_ok_iff.1 hlocate').2⟩
    · rw [Bool.not_eq_true] at hway
      exact absurd ⟨⟨k, target, locate_eq_ok_iff.2 ⟨hisway, hlink⟩⟩, hway⟩ (hlinks way hmem)
  · rw [← hpath] at hfollowed
    have htrue := holds_iff.2 ⟨k, e, locate_eq_ok_iff.2 ⟨hispath, hfollowed⟩⟩
    rw [hholds] at htrue
    cases htrue

end SiteScaffold.Disk

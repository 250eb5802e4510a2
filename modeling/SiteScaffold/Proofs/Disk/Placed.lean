/-
Files placed where no path led. The folders above a file are made and then it is written, and
nothing that was on the disk is written over, wherever links lead (`write_kept`): either no
folder had to be made, and the file is written where its path led to a free place before, or
the last folder is new, and nothing below a new folder was there before (`makeFolders_new`).
A file is written for sure where nothing is in a folder that is there (`Free.write`).
-/
import SiteScaffold.Proofs.Disk.Covers
import SiteScaffold.Proofs.Disk.Tree

namespace SiteScaffold.Disk

open Path (IsName IsPlain under lead)

variable {disk disk' grown : Disk} {k here there top : Key} {links left : Nat} {steps : List Text}
  {path name base : Text} {content : Content}

/-- A way that ends with a name goes over a folder or over a link at last. -/
theorem Reaches.concat_cases (hname : IsName name) (h : Reaches disk links here (steps ++ [name]) left there) :
    ∃ left' mid, Reaches disk links here steps left' mid
      ∧ (disk.lookup (mid ++ [name]) = some .folder ∧ there = mid ++ [name]
        ∨ ∃ target, disk.lookup (mid ++ [name]) = some (.link target)) := by
  obtain ⟨left', mid, hmid, hlast⟩ := h.leads_folder.split (all_single hname)
  obtain ⟨left'', hreaches⟩ := hlast.reaches
  refine ⟨left', mid, hmid, ?_⟩
  rcases hreaches.single hname with ⟨hfolder, -, hthere⟩ | hlink
  · exact .inl ⟨hfolder, hthere⟩
  · exact .inr hlink

/-- Nothing was where the path of a new folder leads. -/
theorem makeFolder_new (hpath : Path.segments path = steps ++ [name]) (hname : IsName name)
    (h : disk.makeFolder path = .ok disk') (hreaches : Reaches disk' 40 [] (steps ++ [name]) left there) :
    disk.lookup there = none := by
  have hkept := makeFolder_kept h
  obtain ⟨left', place, hplace, hnone, rfl⟩ := makeFolder_eq_ok hpath hname h
  obtain ⟨left'', mid, hmid, hlast⟩ := hreaches.concat_cases hname
  obtain ⟨-, rfl⟩ := (hplace.mono hkept).unique hmid
  rcases hlast with ⟨-, rfl⟩ | ⟨target, hlink⟩
  · exact hnone
  · rw [lookup_insert (by simp), if_pos rfl] at hlink
    cases hlink

/-- Below a place where nothing was there was nothing, and no link is there when folders have
been made. -/
theorem Grown.lookup_below_new {names : List Text} (hclosed : disk.Closed) (hgrown : Grown names disk disk')
    (hnone : disk.lookup there = none) (name : Text) :
    disk.lookup (there ++ [name]) = none
      ∧ ∀ e, disk'.lookup (there ++ [name]) = some e → e = .folder := by
  have hbelow : disk.lookup (there ++ [name]) = none := by
    cases hlookup : disk.lookup (there ++ [name]) with
    | none => rfl
    | some e =>
        rw [hclosed _ _ _ hlookup] at hnone
        cases hnone
  refine ⟨hbelow, fun e he => ?_⟩
  rcases hgrown.new _ e he with hbefore | ⟨hfolder, -⟩
  · rw [hbelow] at hbefore
    cases hbefore
  · exact hfolder

variable (hclosed : disk.Closed) (hreaches : Reaches disk 40 [] (lead base) left top)
  (hnames : ∀ n ∈ k, IsStep n ∧ '/' ∉ n) (hk : k ≠ [])

include hclosed hreaches hnames hk

theorem makeFolderBelow_new {depth : Nat} (hdepth : (under base k).length ≤ depth)
    (h : disk.makeFolderBelow (under base k) (parentsOf depth (under base k)) = (.ok (), disk')) :
    disk' = disk ∨ ∀ left there, Reaches disk' 40 [] (lead base ++ k) left there → disk.lookup there = none := by
  have hplain := isPlain_of_steps hnames
  have hnil : under base k ≠ [] := Path.under_ne_nil hk hplain
  induction depth generalizing k disk' with
  | zero => exact absurd (List.eq_nil_of_length_eq_zero (Nat.le_zero.1 hdepth)) hnil
  | succ depth ih =>
      obtain ⟨front, name, rfl⟩ := List.eq_nil_or_concat' k |>.resolve_left hk
      have hstep := (hnames name (by simp)).1
      have hsegments : Path.segments (under base (front ++ [name])) = (lead base ++ front) ++ [name] := by
        rw [Path.segments_under (by simp) hplain, List.append_assoc]
      rw [← List.append_assoc]
      obtain (⟨hmake, -⟩ | ⟨rfl, -⟩) | ⟨hmissing, parent, rest, hparents, hparent⟩ := makeFolderBelow_cases h
      · exact .inr fun _ _ => makeFolder_new hsegments hstep.isName hmake
      · exact .inl rfl
      · by_cases hfront : front = []
        · -- the folder is there, so nothing above is missing
          subst hfront
          rw [List.append_nil] at hsegments
          exact absurd hmissing (makeFolder_ne_missing hsegments hstep hreaches)
        · have hlength := @Path.length_under_concat base name front hfront hplain
          have hfrontNames : ∀ n ∈ front, IsStep n ∧ '/' ∉ n := fun n hn => hnames n (List.mem_append_left _ hn)
          have hfronts : ∀ n ∈ front, IsPlain n := fun n hn => hplain n (List.mem_append_left _ hn)
          rw [parentsOf_under hfront hplain] at hparents
          cases hparents
          have hdepth : (under base front).length ≤ depth := by omega
          obtain ⟨fault, -, hfails⟩ | ⟨below, hbelow, hagain⟩ := hparent
          · cases hfails
          · have hgrown := grown_makeFolderBelow_under hclosed hreaches hfrontNames hfront (fun _ hn => hn) hdepth
            rw [hbelow] at hgrown
            have habove := ih hfrontNames hfront (by omega) hbelow hfronts (Path.under_ne_nil hfront hfronts)
            obtain ⟨hmake, -⟩ | ⟨rfl, -⟩ := hagain
            · refine .inr fun left' there' hthere => ?_
              have hnone := makeFolder_new hsegments hstep.isName hmake hthere
              cases hlookup : disk.lookup there' with
              | none => rfl
              | some e =>
                  rw [hgrown.kept _ _ hlookup] at hnone
                  cases hnone
            · rcases habove with heq | hnew
              · exact .inl heq
              · refine .inr fun left' there' hthere => ?_
                obtain ⟨left'', mid, hmid, hlast⟩ := hthere.concat_cases hstep.isName
                obtain ⟨hnone, hfolders⟩ := hgrown.lookup_below_new hclosed (hnew _ _ hmid) name
                rcases hlast with ⟨-, rfl⟩ | ⟨target, hlink⟩
                · exact hnone
                · cases hfolders _ hlink

/-- Where a folder is that was made with those above it there was nothing, if any was made. -/
theorem makeFolders_new (h : disk.makeFolders (under base k) = (.ok (), disk')) :
    disk' = disk ∨ ∀ left there, Reaches disk' 40 [] (lead base ++ k) left there → disk.lookup there = none := by
  unfold makeFolders at h
  split at h
  · exact .inl (congrArg Prod.snd h).symm
  · exact makeFolderBelow_new hclosed hreaches hnames hk (Nat.le_refl _) h

/-- Nothing is written over by a file to which no path led before the folders above it were
made. -/
theorem write_kept (hname : IsPlain name) (hholds : disk.holds (under base (k ++ [name])) = false)
    (hmake : disk.makeFolders (under base k) = (.ok (), grown))
    (hwrite : grown.write (under base (k ++ [name])) content = .ok disk') :
    (∀ j e, disk.lookup j = some e → disk'.lookup j = some e) ∧ disk'.Closed := by
  have hplain := Path.isPlain_concat (isPlain_of_steps hnames) hname
  have hgrown : Grown k disk grown := by
    have hgrown := grown_makeFolders_under hclosed hreaches hnames hk fun _ hn => hn
    rw [hmake] at hgrown
    exact hgrown
  obtain ⟨j, x, hlocate, hj, rfl, hbefore⟩ := write_eq_ok hwrite
  obtain ⟨hispath, hleads⟩ := locate_eq_ok_iff.1 hlocate
  rcases hbefore with hnone | ⟨c, hfile⟩
  · rw [place_of_none hnone] at hleads
    obtain ⟨above, last, rfl, hfolder⟩ := hleads.folder_above_free hgrown.closed (lookup_nil grown)
    refine ⟨fun i e hi => lookup_insert_of_none hj hnone _ i e (hgrown.kept i e hi), ?_⟩
    refine hgrown.closed.insert hfolder fun e he => ?_
    rw [hnone] at he
    cases he
  · -- a file there would have been there before
    exfalso
    rw [place_of_some hfile, Path.segments_under (by simp) hplain, ← List.append_assoc] at hleads
    have hthere := hgrown.lookup_of_ne_folder hfile (by simp)
    rcases makeFolders_new hclosed hreaches hnames hk hmake with rfl | hnew
    · rw [place_of_some hfile] at hlocate
      rw [holds_iff.2 ⟨_, _, hlocate⟩] at hholds
      cases hholds
    · obtain ⟨left', folder, hfolder, hlast⟩ := hleads.split (all_single hname.toIsName)
      obtain ⟨hnone, hfolders⟩ := hgrown.lookup_below_new hclosed (hnew _ _ hfolder) name
      obtain ⟨i, e, hentry⟩ := hlast.unfollowed
      obtain ⟨-, hplace⟩ := (leads_name hname.toIsName).1 hentry
      cases hlookup : grown.lookup (folder ++ [name]) with
      | none =>
          rw [place_of_none hlookup] at hplace
          cases hplace
      | some e' =>
          obtain rfl := hfolders e' hlookup
          have hstep := ((leads_name hname.toIsName).1 hentry).1
          have hfollowed : Leads grown true left' folder [name] (.entry (folder ++ [name]) .folder) :=
            .folder _ _ _ _ _ hstep hlookup (.arrived _ _)
          cases hlast.unique hfollowed

omit hclosed hreaches hnames hk

-- ========================================================================= free paths

/-- Whether a path leads to where nothing is, not even a link, in a folder that is there. -/
def Free (disk : Disk) (path : Text) : Prop := ∃ k, disk.locate false path = .ok (.free k false)

theorem Free.holds (h : disk.Free path) : disk.holds path = false := by
  obtain ⟨k, hfree⟩ := h
  rw [Bool.eq_false_iff]
  intro hholds
  obtain ⟨_, _, hlocate⟩ := holds_iff.1 hholds
  obtain ⟨k', e, hentry⟩ := unfollowed hlocate
  rw [hfree] at hentry
  cases hentry

/-- A free path stays free if only another file comes or goes. -/
theorem Free.congr {j : Key} (hroot : j ≠ []) (hagree : AgreeOff j disk disk') (hleaf : disk.IsLeaf j)
    (hpath : Path.segments path = steps ++ [name]) (hname : IsName name) (hother : j.getLast? ≠ some name)
    (h : disk.Free path) : disk'.Free path := by
  obtain ⟨k, hfree⟩ := h
  refine ⟨k, locate_congr hroot hagree hleaf hfree ?_⟩
  rintro rfl
  exact hother (getLast?_of_locate hpath hname hfree)

theorem Free.removeFile (hpath : Path.segments path = steps ++ [name]) (hname : IsName name) (h : disk.Free path) :
    disk.removeFile path = .error .missing := by
  obtain ⟨k, hfree⟩ := h
  unfold Disk.removeFile find
  rw [Path.bare_eq hpath hname, hfree]
  rfl

/-- A file can be written there. -/
theorem Free.write (hpath : Path.segments path = steps ++ [name]) (hname : IsName name) (h : disk.Free path)
    (content : Content) : ∃ disk', disk.write path content = .ok disk' := by
  obtain ⟨k, hfree⟩ := h
  obtain ⟨hispath, hstep, left, there, hreaches, hplace⟩ := (locate_name hpath hname).1 hfree
  have hnone : disk.lookup (there ++ [name]) = none := by
    cases hlookup : disk.lookup (there ++ [name]) with
    | none => rfl
    | some e =>
        rw [place_of_some hlookup] at hplace
        cases hplace
  have hlast : Leads disk true left there [name] (.free (there ++ [name]) false) :=
    .free _ _ _ _ hstep hnone rfl
  have hlocate : disk.locate true path = .ok (.free (there ++ [name]) false) := by
    refine locate_eq_ok_iff.2 ⟨hispath, ?_⟩
    rw [hpath]
    exact hreaches.leads hlast (by simp)
  refine ⟨disk.insert (there ++ [name]) (.file false content), ?_⟩
  unfold Disk.write
  rw [hlocate]
  rfl

/-- No folder is made on the way to a folder that is there. -/
theorem makeFolders_of_reaches (hispath : IsPath (under base k)) (hnames : ∀ n ∈ k, IsStep n ∧ '/' ∉ n) (hk : k ≠ [])
    (hreaches : Reaches disk 40 [] (lead base ++ k) left there) : disk.makeFolders (under base k) = (.ok (), disk) := by
  have hplain := isPlain_of_steps hnames
  have hlocate : disk.locate true (under base k) = .ok (.entry there .folder) := by
    rw [locate_eq_ok_iff, Path.segments_under hk hplain]
    exact ⟨hispath, hreaches.leads_folder⟩
  exact makeFolders_of_locate (Path.bare_under hk hplain).1 hlocate

/-- So none is made above a free path. -/
theorem Free.makeFolders (hnames : ∀ n ∈ k, IsStep n ∧ '/' ∉ n) (hk : k ≠ []) (hname : IsPlain name)
    (h : disk.Free (under base (k ++ [name]))) : disk.makeFolders (under base k) = (.ok (), disk) := by
  have hplain := Path.isPlain_concat (isPlain_of_steps hnames) hname
  have hfronts : ∀ n ∈ k, IsPlain n := fun n hn => hplain n (List.mem_append_left _ hn)
  have hsegments : Path.segments (under base (k ++ [name])) = (lead base ++ k) ++ [name] := by
    rw [Path.segments_under (by simp) hplain, List.append_assoc]
  obtain ⟨j, hfree⟩ := h
  obtain ⟨hispath, -, left, there, hreaches, -⟩ := (locate_name hsegments hname.toIsName).1 hfree
  refine makeFolders_of_reaches (hispath.of_prefix ?_ (Path.under_ne_nil hk hfronts)) hnames hk hreaches
  rw [Path.under_concat hk hplain]
  exact List.prefix_append _ _

end SiteScaffold.Disk

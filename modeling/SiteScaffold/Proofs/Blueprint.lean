/-
Generated files on disk. A file is placed where nothing can be, with the folders above
it, unless the system reports a fault (`placeNew_on`), and it is discarded from where it
stands (`discard_on`). In a tree, where no link leads elsewhere, it comes and goes at the
place that its names lead to, if anything happens at all (`placeNew_cases`,
`discard_cases`). On other disks it takes nothing away (`covers_placeNew`), it writes nothing
over if its path led nowhere (`placeNew_fresh`), and its path leads nowhere once it is discarded
(`discard_gone`).
-/
import SiteScaffold.Blueprint
import SiteScaffold.Proofs.Disk.Overwritten
import SiteScaffold.Proofs.Disk.Placed
import SiteScaffold.Proofs.Edit

namespace SiteScaffold.Blueprint

open Disk (Change Covers Grown Stands Tree Vacant)
open Path (IsName IsPlain under)

variable {disk : Disk} {k : Key} {steps names : List Text} {name path what content folder : Text}

/-- A file below a folder is placed by making the folder and then writing the file. The first
of the two that meets a fault is the last. -/
theorem place_cases {answer : Except Failure Unit} {disk' : Disk} (hparent : Path.parent? path = some folder)
    (h : (place path content).on disk = (answer, disk')) :
    (∃ fault, disk.makeFolders folder = (.error fault, disk')
        ∧ answer = .error ⟨["Failed to create directory: " ++ folder], .system fault⟩)
      ∨ ∃ grown, disk.makeFolders folder = (.ok (), grown)
        ∧ ((∃ fault, grown.write path (.text content) = .error fault ∧ disk' = grown
            ∧ answer = .error ⟨["Failed to write file: " ++ path], .system fault⟩)
          ∨ grown.write path (.text content) = .ok disk' ∧ answer = .ok ()) := by
  unfold place at h
  rw [hparent] at h
  cases hmake : disk.makeFolders folder with
  | mk outcome grown =>
      cases outcome with
      | error fault =>
          rw [Edit.on_bind_error (Edit.on_makeFolders_error hmake)] at h
          cases h
          exact .inl ⟨fault, rfl, rfl⟩
      | ok made =>
          rw [Edit.on_bind_ok (Edit.on_makeFolders hmake)] at h
          refine .inr ⟨grown, rfl, ?_⟩
          cases hwrite : grown.write path (.text content) with
          | error fault =>
              rw [Edit.on_change_error hwrite] at h
              cases h
              exact .inl ⟨fault, rfl, rfl, rfl⟩
          | ok new =>
              rw [Edit.on_change hwrite] at h
              cases h
              exact .inr ⟨rfl, rfl⟩

/-- A file is written where nothing is, and nothing else changes but that folders are
made. -/
theorem place_on (content : Text) (hpath : Path.segments path = steps ++ [name])
    (hname : IsName name) (hparent : Path.parent? path = some folder)
    (hgrown : Grown names disk (disk.makeFolders folder).2) (h : Vacant names disk path) :
    (∃ failure disk', (place path content).on disk = (.error failure, disk') ∧ failure.OfSystem)
      ∨ ∃ grown disk', (place path content).on disk = (.ok (), disk') ∧ Grown names disk grown
        ∧ ∃ k, k.getLast? = some name ∧ grown.lookup k = none ∧ Change k grown disk'
          ∧ disk'.Stands path k := by
  cases hplace : (place path content).on disk with
  | mk answer disk' =>
      obtain ⟨fault, -, rfl⟩ | ⟨grown, hmake, ⟨fault, -, -, rfl⟩ | ⟨hwrite, rfl⟩⟩ := place_cases hparent hplace
      · exact .inl ⟨_, disk', rfl, rfl⟩
      · exact .inl ⟨_, disk', rfl, rfl⟩
      · rw [hmake] at hgrown
        obtain ⟨k, hlast, hnone, hchange, hstands⟩ := (h.grown hgrown).write hgrown.closed hpath hname hwrite
        exact .inr ⟨grown, disk', rfl, hgrown, k, hlast, hnone, hchange, hstands⟩

theorem placeNew_on (hholds : disk.holds path = false) :
    (placeNew path what content).on disk = (place path content).on disk := by
  unfold placeNew
  rw [Edit.on_bind_ok (Edit.on_ask _), hholds]
  rfl

theorem placeNew_on_holds (hholds : disk.holds path = true) :
    (placeNew path what content).on disk = (.error ⟨[], .alreadyExists what path⟩, disk) := by
  unfold placeNew
  rw [Edit.on_bind_ok (Edit.on_ask _), hholds]
  rfl

-- what discarding comes to, by what the removal of the file does

theorem discard_on_removed {disk' : Disk} (h : disk.removeFile path = .ok disk') :
    (discard path).on disk = (.ok true, disk') := by
  unfold discard
  rw [Edit.on_bind_ok Edit.on_get, h]
  rfl

theorem discard_on_missing (h : disk.removeFile path = .error .missing) :
    (discard path).on disk = (.ok false, disk) := by
  unfold discard
  rw [Edit.on_bind_ok Edit.on_get, h]
  rfl

theorem discard_on_fault {fault : Fault} (hfault : fault ≠ .missing) (h : disk.removeFile path = .error fault) :
    (discard path).on disk = (.error ⟨["Failed to remove " ++ path], .system fault⟩, disk) := by
  unfold discard
  rw [Edit.on_bind_ok Edit.on_get, h]
  cases fault with
  | missing => exact absurd rfl hfault
  | _ => rfl

/-- A file that stands somewhere is removed, and nothing else changes. -/
theorem discard_on (hclosed : disk.Closed) (hpath : Path.segments path = steps ++ [name])
    (hname : IsName name) (hnew : name ∉ names) (h : disk.Stands path k) :
    ∃ disk', (discard path).on disk = (.ok true, disk') ∧ disk'.lookup k = none
      ∧ Change k disk disk' ∧ Vacant names disk' path := by
  obtain ⟨disk', hremove, hgone, hchange, hvacant⟩ := h.removeFile hclosed hpath hname hnew
  exact ⟨disk', discard_on_removed hremove, hgone, hchange, hvacant⟩

-- ======================================================================== in a tree

variable {base : Text} {top : Key} {disk' : Disk}

/-- A file is written to its place in a tree, if no file was there. -/
theorem write_of_not_file {content : Content} (tree : Tree base top disk) (hplain : ∀ n ∈ k ++ [name], IsPlain n)
    (hnone : ∀ x c, Disk.IsPath (under base (k ++ [name])) → disk.lookup (top ++ (k ++ [name])) ≠ some (.file x c))
    (h : disk.write (under base (k ++ [name])) content = .ok disk') :
    Disk.IsPath (under base (k ++ [name])) ∧ Disk.IsStep name ∧ Change (top ++ (k ++ [name])) disk disk'
      ∧ disk'.lookup (top ++ (k ++ [name])) = some (.file false content) := by
  obtain ⟨hpath, hstep, hchange, -, hlookup⟩ := tree.write hplain h
  have hmode : disk.modeAt (top ++ (k ++ [name])) = false := by
    unfold Disk.modeAt
    split
    next x c hfile => exact absurd hfile (hnone x c hpath)
    next => rfl
  rw [hmode] at hlookup
  exact ⟨hpath, hstep, hchange, hlookup⟩

/-- A new file comes to its place in a tree, if nothing was there, with the folders above
it. -/
theorem placeNew_cases {answer : Except Failure Unit} (tree : Tree base top disk) (hk : k ≠ [])
    (hplain : ∀ n ∈ k ++ [name], IsPlain n) (hgrown : Grown names disk (disk.makeFolders (under base k)).2)
    (hnames : ∀ n ∈ names, Disk.IsStep n ∧ '/' ∉ n)
    (h : (placeNew (under base (k ++ [name])) what content).on disk = (answer, disk')) :
    (∃ failure, answer = .error failure) ∧ Grown names disk disk'
      ∨ answer = .ok () ∧ Disk.IsPath (under base (k ++ [name])) ∧ Disk.IsStep name
        ∧ ∃ grown, Grown names disk grown ∧ Change (top ++ (k ++ [name])) grown disk'
          ∧ disk'.lookup (top ++ (k ++ [name])) = some (.file false (.text content)) := by
  by_cases hholds : disk.holds (under base (k ++ [name])) = true
  · rw [placeNew_on_holds hholds] at h
    cases h
    exact .inl ⟨⟨_, rfl⟩, .refl tree.closed⟩
  · rw [Bool.not_eq_true] at hholds
    rw [placeNew_on hholds] at h
    obtain ⟨fault, hmake, rfl⟩ | ⟨grown, hmake, hwrite⟩ := place_cases (Path.parent?_under_concat hk hplain) h
    · rw [hmake] at hgrown
      exact .inl ⟨⟨_, rfl⟩, hgrown⟩
    · rw [hmake] at hgrown
      obtain ⟨fault, -, rfl, rfl⟩ | ⟨hwrite, rfl⟩ := hwrite
      · exact .inl ⟨⟨_, rfl⟩, hgrown⟩
      · -- a file would have been there before the folders were made
        have hnone : ∀ x c, Disk.IsPath (under base (k ++ [name])) →
            grown.lookup (top ++ (k ++ [name])) ≠ some (.file x c) := by
          intro x c hpath hlookup
          have hbefore := hgrown.lookup_of_ne_folder hlookup (by simp)
          have hthere := (tree.holds_iff (by simp) hplain).2 ⟨hpath, _, hbefore⟩
          rw [hholds] at hthere
          cases hthere
        obtain ⟨hpath, hstep, hwritten⟩ := write_of_not_file (tree.grown hgrown hnames) hplain hnone hwrite
        exact .inr ⟨rfl, hpath, hstep, grown, hgrown, hwritten⟩

/-- A new file comes to a free place in a folder of a tree. -/
theorem placeNew_on_none (tree : Tree base top disk) (hk : k ≠ []) (hplain : ∀ n ∈ k ++ [name], IsPlain n)
    (hpath : Disk.IsPath (under base (k ++ [name]))) (hstep : Disk.IsStep name)
    (hfolder : disk.lookup (top ++ k) = some .folder) (hnone : disk.lookup (top ++ (k ++ [name])) = none)
    (what content : Text) :
    (placeNew (under base (k ++ [name])) what content).on disk
      = (.ok (), disk.insert (top ++ (k ++ [name])) (.file false (.text content))) := by
  have hfronts : ∀ n ∈ k, IsPlain n := fun n hn => hplain n (List.mem_append_left _ hn)
  have hlocate : ∀ {follow}, disk.locate follow (under base (k ++ [name])) = .ok (.free (top ++ (k ++ [name])) false) := by
    intro follow
    rw [tree.locate hplain, Disk.place_of_none hnone]
    exact ⟨hpath, hstep, hfolder, rfl⟩
  have hholds : disk.holds (under base (k ++ [name])) = false := Disk.Free.holds ⟨_, hlocate⟩
  have hparent : Disk.IsPath (under base k) :=
    hpath.of_prefix (Path.under_prefix hk hplain) (Path.under_ne_nil hk hfronts)
  have hmake := Disk.makeFolders_of_locate (Path.bare_under hk hfronts).1
    ((tree.locate_entry hk hfronts).2 ⟨hparent, rfl, hfolder⟩)
  have hwrite : disk.write (under base (k ++ [name])) (.text content)
      = .ok (disk.insert (top ++ (k ++ [name])) (.file false (.text content))) := by
    unfold Disk.write
    rw [hlocate]
    rfl
  rw [placeNew_on hholds]
  unfold place
  rw [Path.parent?_under_concat hk hplain]
  dsimp only
  rw [Edit.on_bind_ok (Edit.on_makeFolders hmake)]
  exact Edit.on_change hwrite

/-- A file is discarded from its place in a tree, or nothing happens. -/
theorem discard_cases {answer : Except Failure Bool} (tree : Tree base top disk)
    (hplain : ∀ n ∈ k ++ [name], IsPlain n)
    (h : (discard (under base (k ++ [name]))).on disk = (answer, disk')) :
    disk' = disk ∨ Change (top ++ (k ++ [name])) disk disk' ∧ disk'.lookup (top ++ (k ++ [name])) = none := by
  have hname : IsPlain name := hplain name (by simp)
  have hsegments : Path.segments (under base (k ++ [name])) = (Path.lead base ++ k) ++ [name] := by
    rw [Path.segments_under (by simp) hplain, List.append_assoc]
  have hfails : ∀ fault, disk.removeFile (under base (k ++ [name])) = .error fault → disk' = disk := by
    intro fault hremove
    by_cases hmissing : fault = .missing
    · subst hmissing
      rw [discard_on_missing hremove] at h
      cases h
      rfl
    · rw [discard_on_fault hmissing hremove] at h
      cases h
      rfl
  cases hlocate : disk.locate false (under base (k ++ [name])) with
  | error fault =>
      refine .inl (hfails fault ?_)
      unfold Disk.removeFile Disk.find
      rw [Path.bare_eq hsegments hname.toIsName, hlocate]
      rfl
  | ok r =>
      obtain ⟨-, -, -, rfl⟩ := (tree.locate hplain).1 hlocate
      cases hlookup : disk.lookup (top ++ (k ++ [name])) with
      | none =>
          rw [Disk.place_of_none hlookup] at hlocate
          refine .inl (hfails .missing ?_)
          unfold Disk.removeFile Disk.find
          rw [Path.bare_eq hsegments hname.toIsName, hlocate]
          rfl
      | some e =>
          rw [Disk.place_of_some hlookup] at hlocate
          have hremove := Disk.removeFile_of_locate hsegments hname.toIsName hlocate
          rcases tree.folder_or_file hlookup with rfl | ⟨x, c, rfl⟩
          · exact .inl (hfails _ hremove)
          · have hchange : Change (top ++ (k ++ [name])) disk (disk.erase (top ++ (k ++ [name]))) :=
              .of_erase tree.closed hlookup
            rw [discard_on_removed hremove] at h
            cases h
            refine .inr ⟨hchange, ?_⟩
            rw [Disk.lookup_erase hchange.root, if_pos (List.prefix_refl _)]

-- ====================================================================== on any disk

/-- Placing takes nothing away, and what is placed is there unless the system reports a
fault. -/
theorem place_covers {answer : Except Failure Unit} (h : (place path content).on disk = (answer, disk')) :
    Covers disk disk' ∧ ((∃ failure, answer = .error failure ∧ failure.OfSystem)
      ∨ answer = .ok () ∧ disk'.isFile path = true) := by
  cases hparent : Path.parent? path with
  | none =>
      unfold place at h
      rw [hparent] at h
      have hchange : (Edit.change ("Failed to write file: " ++ path) (·.write path (.text content))).on disk
          = (answer, disk') := h
      cases hwrite : disk.write path (.text content) with
      | error fault =>
          rw [Edit.on_change_error hwrite] at hchange
          cases hchange
          exact ⟨.refl disk, .inl ⟨_, rfl, rfl⟩⟩
      | ok new =>
          rw [Edit.on_change hwrite] at hchange
          cases hchange
          exact ⟨Disk.covers_write hwrite, .inr ⟨rfl, Disk.isFile_of_write hwrite⟩⟩
  | some folder =>
      have hcovers := Disk.covers_makeFolders disk folder
      obtain ⟨fault, hmake, rfl⟩ | ⟨grown, hmake, ⟨fault, -, rfl, rfl⟩ | ⟨hwrite, rfl⟩⟩ := place_cases hparent h
      · rw [hmake] at hcovers
        exact ⟨hcovers, .inl ⟨_, rfl, rfl⟩⟩
      · rw [hmake] at hcovers
        exact ⟨hcovers, .inl ⟨_, rfl, rfl⟩⟩
      · rw [hmake] at hcovers
        exact ⟨hcovers.trans (Disk.covers_write hwrite), .inr ⟨rfl, Disk.isFile_of_write hwrite⟩⟩

theorem placeNew_covers {answer : Except Failure Unit} (h : (placeNew path what content).on disk = (answer, disk')) :
    Covers disk disk' ∧ ((∃ failure, answer = .error failure
        ∧ (failure.cause = .alreadyExists what path ∨ failure.OfSystem))
      ∨ answer = .ok () ∧ disk'.isFile path = true) := by
  cases hholds : disk.holds path with
  | true =>
      rw [placeNew_on_holds hholds] at h
      cases h
      exact ⟨.refl disk, .inl ⟨_, rfl, .inl rfl⟩⟩
  | false =>
      rw [placeNew_on hholds] at h
      obtain ⟨hcovers, ⟨failure, rfl, hsystem⟩ | hplaced⟩ := place_covers h
      · exact ⟨hcovers, .inl ⟨failure, rfl, .inr hsystem⟩⟩
      · exact ⟨hcovers, .inr hplaced⟩

theorem covers_placeNew (disk : Disk) (path what content : Text) :
    Covers disk ((placeNew path what content).on disk).2 :=
  (placeNew_covers rfl).1

/-- A file to whose path nothing led is placed and leaves all that was there as it was, unless
the system reports a fault. On a free path it does not. -/
theorem placeNew_fresh {left : Nat} (hclosed : disk.Closed) (hreaches : Disk.Reaches disk 40 [] (Path.lead base) left top)
    (hnames : ∀ n ∈ k, Disk.IsStep n ∧ '/' ∉ n) (hk : k ≠ []) (hname : IsPlain name)
    (hholds : disk.holds (under base (k ++ [name])) = false) (what content : Text) :
    (∃ failure disk', (placeNew (under base (k ++ [name])) what content).on disk = (.error failure, disk')
        ∧ failure.OfSystem ∧ ¬ disk.Free (under base (k ++ [name])))
      ∨ ∃ disk', (placeNew (under base (k ++ [name])) what content).on disk = (.ok (), disk')
        ∧ (∀ j e, disk.lookup j = some e → disk'.lookup j = some e) ∧ disk'.Closed
        ∧ disk'.isFile (under base (k ++ [name])) = true := by
  have hplain := Path.isPlain_concat (Disk.isPlain_of_steps hnames) hname
  have hsegments : Path.segments (under base (k ++ [name])) = (Path.lead base ++ k) ++ [name] := by
    rw [Path.segments_under (by simp) hplain, List.append_assoc]
  rw [placeNew_on hholds]
  cases hplace : (place (under base (k ++ [name])) content).on disk with
  | mk answer disk' =>
      obtain ⟨fault, hmake, rfl⟩ | ⟨grown, hmake, hwrite⟩ :=
        place_cases (Path.parent?_under_concat hk hplain) hplace
      · refine .inl ⟨_, disk', rfl, rfl, fun hfree => ?_⟩
        rw [hfree.makeFolders hnames hk hname] at hmake
        cases hmake
      · obtain ⟨fault, hwrite, rfl, rfl⟩ | ⟨hwrite, rfl⟩ := hwrite
        · refine .inl ⟨_, _, rfl, rfl, fun hfree => ?_⟩
          rw [hfree.makeFolders hnames hk hname] at hmake
          cases hmake
          obtain ⟨disk', hok⟩ := hfree.write hsegments hname.toIsName (.text content)
          rw [hok] at hwrite
          cases hwrite
        · obtain ⟨hkept, hclosed'⟩ := Disk.write_kept hclosed hreaches hnames hk hname hholds hmake hwrite
          exact .inr ⟨disk', rfl, hkept, hclosed', Disk.isFile_of_write hwrite⟩

/-- Once a file is discarded its path leads nowhere, and nothing else has come. If nothing has
to be discarded nothing changes. -/
theorem discard_gone {answer : Except Failure Bool} (hpath : Path.segments path = steps ++ [name])
    (hname : IsName name) (h : (discard path).on disk = (answer, disk')) :
    (∀ j e, disk'.lookup j = some e → disk.lookup j = some e)
      ∧ ((∃ fault, fault ≠ .missing ∧ disk.removeFile path = .error fault
          ∧ answer = .error ⟨["Failed to remove " ++ path], .system fault⟩)
        ∨ (∃ removed, answer = .ok removed) ∧ disk'.holds path = false) := by
  cases hremove : disk.removeFile path with
  | ok removed =>
      rw [discard_on_removed hremove] at h
      cases h
      obtain ⟨hgone, hfewer⟩ := Disk.holds_of_removeFile hpath hname hremove
      exact ⟨hfewer, .inr ⟨⟨true, rfl⟩, hgone⟩⟩
  | error fault =>
      by_cases hmissing : fault = .missing
      · subst hmissing
        rw [discard_on_missing hremove] at h
        cases h
        exact ⟨fun _ _ => id, .inr ⟨⟨false, rfl⟩, Disk.holds_of_missing hpath hname hremove⟩⟩
      · rw [discard_on_fault hmissing hremove] at h
        cases h
        exact ⟨fun _ _ => id, .inl ⟨fault, hmissing, rfl, rfl⟩⟩

/-- On a free path there is nothing to discard. -/
theorem discard_on_free (hpath : Path.segments path = steps ++ [name]) (hname : IsName name) (h : disk.Free path) :
    (discard path).on disk = (.ok false, disk) :=
  discard_on_missing (h.removeFile hpath hname)

end SiteScaffold.Blueprint

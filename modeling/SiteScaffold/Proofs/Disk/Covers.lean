/-
Disks with all the entries of another. More entries, and other contents of files, never take
a path away from an entry (`Covers.holds`): what a command made is there after everything
else that it makes, and what it removed is gone after everything else that it removes. Making
folders and writing files cover what was there before (`covers_makeFolders`, `covers_write`),
wherever links lead, and what is written is there (`isFile_of_write`).
-/
import SiteScaffold.Proofs.Disk.Stands

namespace SiteScaffold.Disk

open Path (IsName)

variable {disk disk' disk'' : Disk} {k here : Key} {e : Entry} {follow : Bool} {links : Nat}
  {steps : List Text} {path name : Text} {content : Content}

/-- Whether all entries of a disk are on another one, files maybe with other contents. -/
structure Covers (disk disk' : Disk) : Prop where
  kept : ∀ k e, e.isFile = false → disk.lookup k = some e → disk'.lookup k = some e
  file : ∀ k x c, disk.lookup k = some (.file x c) → ∃ c', disk'.lookup k = some (.file x c')

namespace Covers

theorem of_kept (h : ∀ k e, disk.lookup k = some e → disk'.lookup k = some e) : Covers disk disk' where
  kept := fun k e _ => h k e
  file := fun k _ c hfile => ⟨c, h k _ hfile⟩

theorem refl (disk : Disk) : Covers disk disk := of_kept fun _ _ => id

theorem trans (h : Covers disk disk') (h' : Covers disk' disk'') : Covers disk disk'' where
  kept := fun k e he hk => h'.kept k e he (h.kept k e he hk)
  file := by
    intro k x c hfile
    obtain ⟨c', hfile'⟩ := h.file k x c hfile
    exact h'.file k x c' hfile'

/-- A file with another content. -/
theorem of_file {x : Bool} {c c' : Content} (hsame : AgreeBut k disk disk')
    (hfile : disk.lookup k = some (.file x c)) (hfile' : disk'.lookup k = some (.file x c')) :
    Covers disk disk' where
  kept := by
    intro j e he hj
    rw [hsame j ?_]
    · exact hj
    · rintro rfl
      rw [hfile] at hj
      cases hj
      cases he
  file := by
    intro j x' c₀ hj
    by_cases heq : j = k
    · rw [heq, hfile] at hj
      cases hj
      exact ⟨c', by rw [heq, hfile']⟩
    · exact ⟨c₀, by rw [hsame j heq, hj]⟩

/-- Each of two disks that differ in the content of one text file covers the other. -/
theorem of_refilled {t : Text} (hholds : disk.HoldsText path k t) (h : Refilled k disk disk') :
    Covers disk disk' ∧ Covers disk' disk := by
  obtain ⟨x, hfile⟩ := hholds.lookup
  obtain ⟨c', hfile'⟩ := h.mode x _ hfile
  exact ⟨of_file h.same hfile hfile', of_file (fun j hj => (h.same j hj).symm) hfile' hfile⟩

/-- A path that leads to an entry leads to one at the same place, and to a file if it was one. -/
theorem leads (h : Covers disk disk') (hleads : Leads disk follow links here steps (.entry k e)) :
    ∃ e', e'.isFile = e.isFile ∧ Leads disk' follow links here steps (.entry k e') := by
  generalize hr : Located.entry k e = r at hleads
  induction hleads with
  | arrived links here =>
      cases hr
      exact ⟨.folder, rfl, .arrived _ _⟩
  | idle links here step rest r hidle hrest ih =>
      obtain ⟨e', he, hleads⟩ := ih hr
      exact ⟨e', he, .idle _ _ _ _ _ hidle hleads⟩
  | up links here rest r hrest ih =>
      obtain ⟨e', he, hleads⟩ := ih hr
      exact ⟨e', he, .up _ _ _ _ hleads⟩
  | free links here step rest hstep hnone hrest => cases hr
  | folder links here step rest r hstep hfolder hrest ih =>
      obtain ⟨e', he, hleads⟩ := ih hr
      exact ⟨e', he, .folder _ _ _ _ _ hstep (h.kept _ _ rfl hfolder) hleads⟩
  | file links here step x c hstep hfile =>
      cases hr
      obtain ⟨c', hfile'⟩ := h.file _ x c hfile
      exact ⟨.file x c', rfl, .file _ _ _ _ _ hstep hfile'⟩
  | slashed links here step rest x c hstep hfile hne hrest => cases hr
  | link links here step target hstep hlink hfollow =>
      cases hr
      exact ⟨.link target, rfl, .link _ _ _ _ hstep (h.kept _ _ rfl hlink) hfollow⟩
  | followed links here step target rest r hstep hlink hfollow htarget hrest ih =>
      obtain ⟨e', he, hleads⟩ := ih hr
      exact ⟨e', he, .followed _ _ _ _ _ _ hstep (h.kept _ _ rfl hlink) hfollow htarget hleads⟩

theorem holds (h : Covers disk disk') (hholds : disk.holds path = true) : disk'.holds path = true := by
  obtain ⟨k, e, hlocate⟩ := holds_iff.1 hholds
  obtain ⟨hispath, hleads⟩ := locate_eq_ok_iff.1 hlocate
  obtain ⟨e', -, hleads'⟩ := h.leads hleads
  exact holds_iff.2 ⟨k, e', locate_eq_ok_iff.2 ⟨hispath, hleads'⟩⟩

theorem holds_eq_false (h : Covers disk disk') (hholds : disk'.holds path = false) :
    disk.holds path = false := by
  rw [Bool.eq_false_iff] at hholds ⊢
  exact fun hheld => hholds (h.holds hheld)

theorem isFile (h : Covers disk disk') (hfile : disk.isFile path = true) : disk'.isFile path = true := by
  obtain ⟨k, x, c, hlocate⟩ := isFile_iff.1 hfile
  obtain ⟨hispath, hleads⟩ := locate_eq_ok_iff.1 hlocate
  obtain ⟨e', he, hleads'⟩ := h.leads hleads
  cases e' with
  | file x' c' => exact isFile_iff.2 ⟨k, x', c', locate_eq_ok_iff.2 ⟨hispath, hleads'⟩⟩
  | folder | link target => cases he

end Covers

/-- A text is read where all entries are as they were. -/
theorem HoldsText.mono {t : Text} (hkept : ∀ k e, disk.lookup k = some e → disk'.lookup k = some e)
    (h : disk.HoldsText path k t) : disk'.HoldsText path k t := by
  obtain ⟨x, hlocate⟩ := h
  obtain ⟨hispath, hleads⟩ := locate_eq_ok_iff.1 hlocate
  exact ⟨x, locate_eq_ok_iff.2 ⟨hispath, hleads.mono hkept⟩⟩

theorem holds_of_isFile (h : disk.isFile path = true) : disk.holds path = true := by
  cases hholds : disk.holds path with
  | true => rfl
  | false =>
      rw [isFile_of_holds hholds] at h
      cases h

-- ========================================================================== free places

/-- Nothing is at a free place. -/
theorem Leads.lookup_free {b : Bool} (h : Leads disk follow links here steps (.free k b)) :
    k ≠ [] ∧ disk.lookup k = none := by
  generalize hr : Located.free k b = r at h
  induction h with
  | arrived links here => cases hr
  | idle links here step rest r hidle hrest ih => exact ih hr
  | up links here rest r hrest ih => exact ih hr
  | free links here step rest hstep hnone hrest =>
      cases hr
      exact ⟨by simp, hnone⟩
  | folder links here step rest r hstep hfolder hrest ih => exact ih hr
  | file links here step x c hstep hfile => cases hr
  | slashed links here step rest x c hstep hfile hne hrest => cases hr
  | link links here step target hstep hlink hfollow => cases hr
  | followed links here step target rest r hstep hlink hfollow htarget hrest ih => exact ih hr

/-- A free place is right in a folder. -/
theorem Leads.folder_above_free {b : Bool} (hclosed : disk.Closed) (hhere : disk.lookup here = some .folder)
    (h : Leads disk follow links here steps (.free k b)) :
    ∃ there name, k = there ++ [name] ∧ disk.lookup there = some .folder := by
  generalize hr : Located.free k b = r at h
  induction h with
  | arrived links here => cases hr
  | idle links here step rest r hidle hrest ih => exact ih hhere hr
  | up links here rest r hrest ih =>
      refine ih ?_ hr
      rcases List.eq_nil_or_concat' here with rfl | ⟨s, x, heq⟩
      · rfl
      · rw [heq] at hhere ⊢
        rw [List.dropLast_concat]
        exact hclosed _ _ _ hhere
  | free links here step rest hstep hnone hrest =>
      cases hr
      exact ⟨here, step, rfl, hhere⟩
  | folder links here step rest r hstep hfolder hrest ih => exact ih hfolder hr
  | file links here step x c hstep hfile => cases hr
  | slashed links here step rest x c hstep hfile hne hrest => cases hr
  | link links here step target hstep hlink hfollow => cases hr
  | followed links here step target rest r hstep hlink hfollow htarget hrest ih =>
      refine ih ?_ hr
      split
      · rfl
      · exact hhere

-- ======================================================================== what is written

/-- A file is written over another one, or where nothing was. -/
theorem write_eq_ok (h : disk.write path content = .ok disk') :
    ∃ k x, disk.locate true path = .ok (disk.place k) ∧ k ≠ [] ∧ disk' = disk.insert k (.file x content)
      ∧ (disk.lookup k = none ∨ ∃ c, disk.lookup k = some (.file x c)) := by
  unfold write at h
  cases hlocate : disk.locate true path with
  | error fault =>
      rw [hlocate] at h
      cases h
  | ok r =>
      rw [hlocate] at h
      have hleads := (locate_eq_ok_iff.1 hlocate).2
      match r, h with
      | .entry k (.file x c), h =>
          cases h
          have hfile := hleads.lookup
          refine ⟨k, x, by rw [place_of_some hfile], ?_, rfl, .inr ⟨c, hfile⟩⟩
          rintro rfl
          cases hfile
      | .free k false, h =>
          cases h
          obtain ⟨hne, hnone⟩ := hleads.lookup_free
          exact ⟨k, false, by rw [place_of_none hnone], hne, rfl, .inl hnone⟩

theorem covers_write (h : disk.write path content = .ok disk') : Covers disk disk' := by
  obtain ⟨k, x, -, hk, rfl, hnone | ⟨c, hfile⟩⟩ := write_eq_ok h
  · exact .of_kept (lookup_insert_of_none hk hnone _)
  · exact .of_file (agreeBut_insert hk) hfile (by rw [lookup_insert hk, if_pos rfl])

/-- What is written is there. -/
theorem isFile_of_write (h : disk.write path content = .ok disk') : disk'.isFile path = true := by
  obtain ⟨k, x, hlocate, hk, rfl, hbefore⟩ := write_eq_ok h
  have hafter : (disk.insert k (.file x content)).lookup k = some (.file x content) := by
    rw [lookup_insert hk, if_pos rfl]
  have hleaf : disk.IsLeaf k := by
    intro e he
    rcases hbefore with hnone | ⟨c, hfile⟩
    · rw [hnone] at he
      cases he
    · rw [hfile] at he
      cases he
      rfl
  have hat := locate_at hk (agreeBut_insert hk).agreeOff hleaf (isLeaf_of_file hafter) hlocate
  rw [place_of_some hafter] at hat
  exact isFile_iff.2 ⟨k, x, content, hat⟩

-- ========================================================================= folders made

theorem makeFolder_kept (h : disk.makeFolder path = .ok disk') :
    ∀ j e, disk.lookup j = some e → disk'.lookup j = some e := by
  unfold makeFolder at h
  cases hlocate : disk.locate false (Path.bare path) with
  | error fault =>
      rw [hlocate] at h
      cases h
  | ok r =>
      rw [hlocate] at h
      match r, h with
      | .free k b, h =>
          cases h
          obtain ⟨hne, hnone⟩ := (locate_eq_ok_iff.1 hlocate).2.lookup_free
          exact lookup_insert_of_none hne hnone _

theorem Asked.kept {answer : Except Fault Unit} (h : Asked path disk answer disk') :
    ∀ j e, disk.lookup j = some e → disk'.lookup j = some e := by
  obtain ⟨hmake, -⟩ | ⟨rfl, -⟩ := h
  · exact makeFolder_kept hmake
  · exact fun _ _ => id

theorem makeFolderBelow_kept {parents : List Text} {answer : Except Fault Unit}
    (h : disk.makeFolderBelow path parents = (answer, disk')) :
    ∀ j e, disk.lookup j = some e → disk'.lookup j = some e := by
  induction parents generalizing path answer disk' with
  | nil =>
      obtain honce | ⟨-, _, _, hcons, -⟩ := makeFolderBelow_cases h
      · exact honce.kept
      · cases hcons
  | cons parent parents ih =>
      obtain honce | ⟨-, _, _, hcons, hparent⟩ := makeFolderBelow_cases h
      · exact honce.kept
      · cases hcons
        obtain ⟨fault, hparent, -⟩ | ⟨below, hparent, hagain⟩ := hparent
        · exact ih hparent
        · exact fun j e hj => hagain.kept j e (ih hparent j e hj)

/-- Making folders takes nothing away. -/
theorem covers_makeFolders (disk : Disk) (path : Text) : Covers disk (disk.makeFolders path).2 := by
  unfold makeFolders
  split
  next => exact .refl disk
  next => exact .of_kept (makeFolderBelow_kept rfl)

-- ========================================================================= what is removed

/-- Nothing is at a path after a file or link was removed there. -/
theorem holds_of_removeFile (hpath : Path.segments path = steps ++ [name]) (hname : IsName name)
    (h : disk.removeFile path = .ok disk') :
    disk'.holds path = false ∧ ∀ j e, disk'.lookup j = some e → disk.lookup j = some e := by
  unfold removeFile find at h
  rw [Path.bare_eq hpath hname] at h
  cases hlocate : disk.locate false path with
  | error fault =>
      rw [hlocate] at h
      cases h
  | ok r =>
      rw [hlocate, Path.endsInSlash_eq hpath hname] at h
      have herased : ∃ k e, r = .entry k e ∧ e ≠ .folder ∧ disk' = disk.erase k := by
        match r, h with
        | .entry k (.file x c), h =>
            cases h
            exact ⟨k, _, rfl, by simp, rfl⟩
        | .entry k (.link target), h =>
            cases h
            exact ⟨k, _, rfl, by simp, rfl⟩
      obtain ⟨k, e, rfl, hne, rfl⟩ := herased
      have hlookup := (locate_eq_ok_iff.1 hlocate).2.lookup_of_ne hne
      have hk : k ≠ [] := by
        rintro rfl
        cases hlookup
        exact hne rfl
      have hfewer : ∀ j e, (disk.erase k).lookup j = some e → disk.lookup j = some e := by
        intro j e hj
        rw [lookup_erase hk] at hj
        split at hj
        · cases hj
        · exact hj
      refine ⟨?_, hfewer⟩
      -- the path would have led to the place that is empty now
      rw [Bool.eq_false_iff]
      intro hholds
      obtain ⟨_, _, hthere⟩ := holds_iff.1 hholds
      obtain ⟨k', e', hentry⟩ := unfollowed hthere
      obtain ⟨hispath, -, left, there, hreaches, hplace⟩ := (locate_name hpath hname).1 hentry
      obtain ⟨-, -, left', there', hreaches', hplace'⟩ := (locate_name hpath hname).1 hlocate
      obtain ⟨-, rfl⟩ := (hreaches.mono hfewer).unique hreaches'
      have hkey : k = there' ++ [name] := by
        rw [← key_place disk (there' ++ [name]), ← hplace']
        rfl
      have hgone : (disk.erase k).lookup (there' ++ [name]) = none := by
        rw [← hkey, lookup_erase hk, if_pos (List.prefix_refl k)]
      rw [place_of_none hgone] at hplace
      cases hplace

/-- Nothing is at a path where nothing can be removed because it is missing. -/
theorem holds_of_missing (hpath : Path.segments path = steps ++ [name]) (hname : IsName name)
    (h : disk.removeFile path = .error .missing) : disk.holds path = false := by
  rw [Bool.eq_false_iff]
  intro hholds
  obtain ⟨_, _, hthere⟩ := holds_iff.1 hholds
  obtain ⟨k, e, hentry⟩ := unfollowed hthere
  rw [removeFile_of_locate hpath hname hentry] at h
  split at h
  · cases h
  · cases h

end SiteScaffold.Disk

/-
Files at paths, as they come and go. A file is written where nothing is (`Vacant.write`),
stands there while other things change (`Stands.congr`), and is removed, after which the
path is vacant again (`Stands.removeFile`).

The paths have a name at the end, and the files stand under it: a link in its place would
make the path vacant no more, and it would not be a file that is removed.
-/
import SiteScaffold.Proofs.Disk.Vacant

namespace SiteScaffold.Disk

open Path (IsName)

variable {disk disk' : Disk} {j k : Key} {e : Entry} {follow : Bool} {steps names : List Text}
  {name path : Text} {t : Text}

-- ============================================================ after growth and change

theorem locate_grown (hgrown : Grown names disk disk') (h : disk.locate follow path = .ok (.entry k e)) :
    disk'.locate follow path = .ok (.entry k e) := by
  obtain ⟨hispath, hleads⟩ := locate_eq_ok_iff.1 h
  exact locate_eq_ok_iff.2 ⟨hispath, hleads.mono hgrown.kept⟩

theorem Change.locate (hchange : Change j disk disk')
    (h : disk.locate follow path = .ok (.entry k e)) (hne : k ≠ j) :
    disk'.locate follow path = .ok (.entry k e) :=
  locate_congr hchange.root hchange.agreeOff hchange.leaf h hne

/-- A path that leads to the place of a change finds the file that stands there now. -/
theorem Change.locate_file {x x' : Bool} {c c' : Content} (hchange : Change k disk disk')
    (h : disk.locate follow path = .ok (.entry k (.file x c)))
    (hfile : disk'.lookup k = some (.file x' c')) :
    disk'.locate follow path = .ok (.entry k (.file x' c')) := by
  have hbefore := (locate_eq_ok_iff.1 h).2.lookup
  rw [← place_of_some hbefore] at h
  rw [← place_of_some hfile]
  exact locate_at hchange.root hchange.agreeOff hchange.leaf hchange.leaf' h

theorem HoldsText.grown (h : disk.HoldsText path k t) (hgrown : Grown names disk disk') :
    disk'.HoldsText path k t := by
  obtain ⟨x, hlocate⟩ := h
  exact ⟨x, locate_grown hgrown hlocate⟩

theorem HoldsText.congr (h : disk.HoldsText path k t) (hchange : Change j disk disk') (hne : k ≠ j) :
    disk'.HoldsText path k t := by
  obtain ⟨x, hlocate⟩ := h
  exact ⟨x, hchange.locate hlocate hne⟩

/-- A text file with another text is a change. -/
theorem HoldsText.change {path' t' : Text} (h : disk.HoldsText path k t)
    (hclosed : disk.Closed) (hnew : disk'.HoldsText path' k t') (hsame : AgreeBut k disk disk') :
    Change k disk disk' := by
  obtain ⟨x, hlookup⟩ := h.lookup
  obtain ⟨x', hlookup'⟩ := hnew.lookup
  exact .of_file hclosed h.ne_nil hsame hlookup hlookup'

/-- A file with another content is a change. -/
theorem HoldsText.change_of_refilled (h : disk.HoldsText path k t) (hclosed : disk.Closed)
    (hrefilled : Refilled k disk disk') : Change k disk disk' := by
  obtain ⟨x, hlookup⟩ := h.lookup
  obtain ⟨c', hlookup'⟩ := hrefilled.mode x _ hlookup
  exact .of_file hclosed h.ne_nil hrefilled.same hlookup hlookup'

/-- A path to a text file that another path leads to as well finds the text that was
written there. -/
theorem HoldsText.at {path' t' : Text} (h : disk.HoldsText path k t) (hchange : Change k disk disk')
    (hnew : disk'.HoldsText path' k t') : disk'.HoldsText path k t' := by
  obtain ⟨x, hlocate⟩ := h
  obtain ⟨x', hlookup⟩ := hnew.lookup
  exact ⟨x', hchange.locate_file hlocate hlookup⟩

-- ==================================================================== files there

/-- The path leads to a file that stands at the place, with no link at its end. -/
def Stands (disk : Disk) (path : Text) (k : Key) : Prop :=
  ∃ x c, disk.locate false path = .ok (.entry k (.file x c))

theorem Stands.lookup (h : disk.Stands path k) : ∃ x c, disk.lookup k = some (.file x c) := by
  obtain ⟨x, c, hlocate⟩ := h
  exact ⟨x, c, (locate_eq_ok_iff.1 hlocate).2.lookup⟩

theorem Stands.getLast? (hpath : Path.segments path = steps ++ [name]) (hname : IsName name)
    (h : disk.Stands path k) : k.getLast? = some name := by
  obtain ⟨x, c, hlocate⟩ := h
  exact getLast?_of_locate hpath hname hlocate

theorem Stands.grown (h : disk.Stands path k) (hgrown : Grown names disk disk') :
    disk'.Stands path k := by
  obtain ⟨x, c, hlocate⟩ := h
  exact ⟨x, c, locate_grown hgrown hlocate⟩

theorem Stands.congr (h : disk.Stands path k) (hchange : Change j disk disk') (hne : k ≠ j) :
    disk'.Stands path k := by
  obtain ⟨x, c, hlocate⟩ := h
  exact ⟨x, c, hchange.locate hlocate hne⟩

/-- A path that leads to a file leads there if links at its end are followed. -/
theorem Leads.follow_file {links : Nat} {here : Key} {x : Bool} {c : Content}
    (h : Leads disk false links here steps (.entry k (.file x c))) :
    Leads disk true links here steps (.entry k (.file x c)) := by
  generalize hr : Located.entry k (.file x c) = r at h
  induction h with
  | arrived links here => cases hr
  | idle links here step rest r hidle hrest ih => exact .idle _ _ _ _ _ hidle (ih hr)
  | up links here rest r hrest ih => exact .up _ _ _ _ (ih hr)
  | free links here step rest hstep hnone hrest => cases hr
  | folder links here step rest r hstep hfolder hrest ih =>
      exact .folder _ _ _ _ _ hstep hfolder (ih hr)
  | file links here step x' c' hstep hfile =>
      cases hr
      exact .file _ _ _ _ _ hstep hfile
  | slashed links here step rest x' c' hstep hfile hne hrest => cases hr
  | link links here step target hstep hlink hfollow => cases hr
  | followed links here step target rest r hstep hlink hfollow htarget hrest ih =>
      exact .followed _ _ _ _ _ _ hstep hlink (.inr rfl) htarget (ih hr)

theorem Stands.holds (h : disk.Stands path k) : disk.holds path = true := by
  obtain ⟨x, c, hlocate⟩ := h
  obtain ⟨hispath, hleads⟩ := locate_eq_ok_iff.1 hlocate
  exact holds_iff.2 ⟨k, .file x c, locate_eq_ok_iff.2 ⟨hispath, hleads.follow_file⟩⟩

theorem isFile_iff :
    disk.isFile path = true ↔ ∃ k x c, disk.locate true path = .ok (.entry k (.file x c)) := by
  unfold isFile entry? find
  cases hlocate : disk.locate true path with
  | error fault =>
      refine iff_of_false Bool.false_ne_true ?_
      rintro ⟨k, x, c, heq⟩
      cases heq
  | ok r =>
      match r with
      | .entry k (.file x c) => exact iff_of_true rfl ⟨k, x, c, rfl⟩
      | .entry k .folder | .entry k (.link _) | .slashed k | .free k _ =>
          refine iff_of_false Bool.false_ne_true ?_
          rintro ⟨k, x, c, heq⟩
          cases heq

theorem Stands.isFile (h : disk.Stands path k) : disk.isFile path = true := by
  obtain ⟨x, c, hlocate⟩ := h
  obtain ⟨hispath, hleads⟩ := locate_eq_ok_iff.1 hlocate
  exact isFile_iff.2 ⟨k, x, c, locate_eq_ok_iff.2 ⟨hispath, hleads.follow_file⟩⟩

theorem isFile_of_holds (h : disk.holds path = false) : disk.isFile path = false := by
  unfold holds at h
  unfold Disk.isFile
  rw [Option.isSome_eq_false_iff, Option.isNone_iff_eq_none] at h
  rw [h]
  rfl

-- ========================================================================= written

/-- A file is written in the folder that the steps before its name reach, if nothing can
be there. -/
theorem Vacant.write {content : Content} (hclosed : disk.Closed)
    (hpath : Path.segments path = steps ++ [name]) (hname : IsName name)
    (h : Vacant names disk path) (hwrite : disk.write path content = .ok disk') :
    ∃ k, k.getLast? = some name ∧ disk.lookup k = none ∧ Change k disk disk'
      ∧ disk'.Stands path k := by
  have hnothing : ∀ k e, disk.locate false path ≠ .ok (.entry k e) := h disk (.refl hclosed)
  unfold Disk.write at hwrite
  cases hlocate : disk.locate true path with
  | error fault =>
      rw [hlocate] at hwrite
      cases hwrite
  | ok r =>
      rw [hlocate] at hwrite
      match r, hwrite with
      | .entry k e, _ =>
          obtain ⟨k', e', hentry⟩ := unfollowed hlocate
          exact absurd hentry (hnothing k' e')
      | .free k false, hwrite =>
          cases hwrite
          obtain ⟨hispath, hleads⟩ := locate_eq_ok_iff.1 hlocate
          rw [hpath] at hleads
          obtain ⟨left, there, hreaches, hlast⟩ := hleads.split (all_single hname)
          have hfound : ∀ r, IsStep name → r = disk.place (there ++ [name]) →
              disk.locate false path = .ok r := fun r hstep hr =>
            (locate_name hpath hname).2 ⟨hispath, hstep, left, there, hreaches, hr⟩
          cases hlast with
          | idle _ _ _ _ _ hidle _ =>
              rw [hname.idle] at hidle
              cases hidle
          | up _ _ _ _ _ => exact absurd rfl hname.up
          | folder _ _ _ _ _ _ _ hrest => cases hrest
          | followed _ _ _ target _ _ hstep hlink _ _ _ =>
              exact absurd (hfound _ hstep (place_of_some hlink).symm) (hnothing _ _)
          | free _ _ _ _ hstep hnone _ =>
              have hchange : Change (there ++ [name]) disk
                  (disk.insert (there ++ [name]) (.file false content)) :=
                .of_insert hclosed (hreaches.lookup hclosed (lookup_nil disk)) hnone
              refine ⟨there ++ [name], List.getLast?_concat, hnone, hchange, false, content, ?_⟩
              have hat := locate_at hchange.root hchange.agreeOff hchange.leaf hchange.leaf'
                (hfound _ hstep rfl)
              rw [hat, place_of_some]
              rw [lookup_insert hchange.root, if_pos rfl]

-- ========================================================================= removed

/-- What stands at a path is removed unless it is a folder. -/
theorem removeFile_of_locate (hpath : Path.segments path = steps ++ [name]) (hname : IsName name)
    (h : disk.locate false path = .ok (.entry k e)) :
    disk.removeFile path = if e = .folder then .error .isFolder else .ok (disk.erase k) := by
  unfold Disk.removeFile find
  rw [Path.bare_eq hpath hname, h, Path.endsInSlash_eq hpath hname]
  cases e with
  | folder | file x c | link target => rfl

/-- A file that stands at a path is removed, and the path is vacant after that. -/
theorem Stands.removeFile (hclosed : disk.Closed) (hpath : Path.segments path = steps ++ [name])
    (hname : IsName name) (hnew : name ∉ names) (h : disk.Stands path k) :
    ∃ disk', disk.removeFile path = .ok disk' ∧ disk'.lookup k = none ∧ Change k disk disk'
      ∧ Vacant names disk' path := by
  obtain ⟨x, c, hlookup⟩ := h.lookup
  have hchange : Change k disk (disk.erase k) := .of_erase hclosed hlookup
  have hgone : (disk.erase k).lookup k = none := by
    rw [lookup_erase hchange.root, if_pos (List.prefix_refl k)]
  refine ⟨disk.erase k, ?_, hgone, hchange, ?_⟩
  · obtain ⟨x, c, hlocate⟩ := h
    rw [removeFile_of_locate hpath hname hlocate, if_neg (by simp)]
  · intro disk' hgrown k' e hentry
    obtain ⟨x, c, hlocate⟩ := h
    obtain ⟨-, -, left, there, hreaches, hplace⟩ := (locate_name hpath hname).1 hlocate
    obtain ⟨-, -, left', there', hreaches', hplace'⟩ := (locate_name hpath hname).1 hentry
    have hk : k = there ++ [name] := by
      rw [← key_place disk (there ++ [name]), ← hplace]
      rfl
    -- the way is the same, and nothing is at its end now
    obtain ⟨hbefore, -⟩ := hreaches.congr hchange.agreeOff hchange.leaf
      (by rw [List.prefix_nil]; exact hchange.root)
    obtain ⟨-, rfl⟩ := (hbefore.mono hgrown.kept).unique hreaches'
    have hnone : disk'.lookup (there' ++ [name]) = none := by
      rw [hgrown.lookup_of_new (ne_getLast? hnew), ← hk]
      exact hgone
    rw [place_of_none hnone] at hplace'
    cases hplace'

end SiteScaffold.Disk

/-
Where a path leads, and where it leads after a change. `Leads` spells out the way
that a path takes over a disk, step by step, whenever it arrives somewhere;
`locateFrom_eq_ok_iff` says that looking a path up finds just these ways.

A way depends on the places it passes only. So it stays what it is when something
changes at a place where it could not have passed on, which is one that holds no
folder and no link (`Leads.congr`).
-/
import SiteScaffold.Disk.Access

namespace SiteScaffold.Disk

variable {disk disk' : Disk} {j k here : Key} {e : Entry} {follow : Bool} {links : Nat}
  {steps : List Text} {r : Located}

-- ============================================================ entries by place

theorem lookup_cons {l : List (Key × Entry)} :
    List.lookup j ((k, e) :: l) = if j = k then some e else l.lookup j := by
  rw [List.lookup_cons]
  by_cases hj : j = k
  · simp [hj]
  · have hbeq : (j == k) = false := beq_false_of_ne hj
    rw [hbeq, if_neg hj]

theorem lookup_insertSorted {l : List (Key × Entry)} :
    (insertSorted k e l).lookup j = if j = k then some e else l.lookup j := by
  induction l with
  | nil => rw [insertSorted, lookup_cons]
  | cons head rest ih =>
      obtain ⟨k', e'⟩ := head
      unfold insertSorted
      split
      next heq => 
        rw [lookup_cons, lookup_cons, heq]
        by_cases hj : j = k'
        · rw [if_pos hj, if_pos hj]
        · rw [if_neg hj, if_neg hj, if_neg hj]
      next hne =>
        split
        next => rw [lookup_cons]
        next =>
          rw [lookup_cons, lookup_cons, ih]
          by_cases hj : j = k'
          · have hjk : j ≠ k := fun h => hne (h ▸ hj)
            rw [if_pos hj, if_pos hj, if_neg hjk]
          · rw [if_neg hj, if_neg hj]

/-- An entry that is put at a place stands there, and all others stand where they
stood. -/
theorem lookup_insert (hk : k ≠ []) :
    (disk.insert k e).lookup j = if j = k then some e else disk.lookup j := by
  unfold lookup
  by_cases hj : j = []
  · rw [if_pos hj, if_pos hj, if_neg (by rw [hj]; exact Ne.symm hk)]
  · rw [if_neg hj, if_neg hj]
    exact lookup_insertSorted

/-- What is put where nothing was leaves the rest as it was. -/
theorem lookup_insert_of_none (hk : k ≠ []) (hnone : disk.lookup k = none) (e : Entry) :
    ∀ j e', disk.lookup j = some e' → (disk.insert k e).lookup j = some e' := by
  intro j e' hj
  rw [lookup_insert hk, if_neg]
  · exact hj
  · rintro rfl
    rw [hnone] at hj
    cases hj

-- ==================================================================== the way

/-- Whether a step of a path is the name of an entry. -/
structure IsStep (step : Text) : Prop where
  idle : Path.isIdle step = false
  up : step ≠ ".."
  size : Text.byteSize step ≤ longestName

/-- The way a path takes from a folder to where it leads. -/
inductive Leads (disk : Disk) (follow : Bool) : Nat → Key → List Text → Located → Prop
  | arrived (links : Nat) (here : Key) : Leads disk follow links here [] (.entry here .folder)
  | idle (links : Nat) (here : Key) (step : Text) (rest : List Text) (r : Located)
      (hidle : Path.isIdle step) (hrest : Leads disk follow links here rest r) :
      Leads disk follow links here (step :: rest) r
  | up (links : Nat) (here : Key) (rest : List Text) (r : Located)
      (hrest : Leads disk follow links here.dropLast rest r) :
      Leads disk follow links here (("..".toList : Text) :: rest) r
  | free (links : Nat) (here : Key) (step : Text) (rest : List Text) (hstep : IsStep step)
      (hnone : disk.lookup (here ++ [step]) = none) (hrest : rest.all (· = [])) :
      Leads disk follow links here (step :: rest) (.free (here ++ [step]) (!rest.isEmpty))
  | folder (links : Nat) (here : Key) (step : Text) (rest : List Text) (r : Located)
      (hstep : IsStep step) (hfolder : disk.lookup (here ++ [step]) = some .folder)
      (hrest : Leads disk follow links (here ++ [step]) rest r) :
      Leads disk follow links here (step :: rest) r
  | file (links : Nat) (here : Key) (step : Text) (x : Bool) (c : Content) (hstep : IsStep step)
      (hfile : disk.lookup (here ++ [step]) = some (.file x c)) :
      Leads disk follow links here [step] (.entry (here ++ [step]) (.file x c))
  | slashed (links : Nat) (here : Key) (step : Text) (rest : List Text) (x : Bool) (c : Content)
      (hstep : IsStep step) (hfile : disk.lookup (here ++ [step]) = some (.file x c))
      (hne : rest ≠ []) (hrest : rest.all (· = [])) :
      Leads disk follow links here (step :: rest) (.slashed (here ++ [step]))
  | link (links : Nat) (here : Key) (step target : Text) (hstep : IsStep step)
      (hlink : disk.lookup (here ++ [step]) = some (.link target)) (hfollow : follow = false) :
      Leads disk follow links here [step] (.entry (here ++ [step]) (.link target))
  | followed (links : Nat) (here : Key) (step target : Text) (rest : List Text) (r : Located)
      (hstep : IsStep step) (hlink : disk.lookup (here ++ [step]) = some (.link target))
      (hfollow : rest ≠ [] ∨ follow = true) (htarget : target ≠ [])
      (hrest : Leads disk follow links (if Path.isAbsolute target then [] else here)
        (Path.segments target ++ rest) r) :
      Leads disk follow (links + 1) here (step :: rest) r

theorem leads_of_locateSteps {through : Text → Key → List Text → Except Fault Located}
    (hthrough : ∀ {target here rest r}, through target here rest = .ok r →
      ∃ left, links = left + 1 ∧ target ≠ [] ∧ Leads disk follow left
        (if Path.isAbsolute target then [] else here) (Path.segments target ++ rest) r)
    (h : disk.locateSteps follow through here steps = .ok r) :
    Leads disk follow links here steps r := by
  fun_induction Disk.locateSteps disk follow through here steps with
  | case1 here =>
      cases h
      exact .arrived links here
  | case2 here step rest hidle ih => exact .idle _ _ _ _ _ hidle (ih h)
  | case3 here rest hidle ih => exact .up _ _ _ _ (ih h)
  | case4 => cases h
  | case5 here step rest hidle hup hsize hnone hrest =>
      cases h
      exact .free _ _ _ _ ⟨by simpa using hidle, hup, by omega⟩ hnone hrest
  | case6 => cases h
  | case7 here step rest hidle hup hsize hfolder ih =>
      exact .folder _ _ _ _ _ ⟨by simpa using hidle, hup, by omega⟩ hfolder (ih h)
  | case8 here step rest hidle hup hsize x c hfile hrest =>
      cases h
      obtain rfl := List.isEmpty_iff.1 hrest
      exact .file _ _ _ _ _ ⟨by simpa using hidle, hup, by omega⟩ hfile
  | case9 here step rest hidle hup hsize x c hfile hne hrest =>
      cases h
      exact .slashed _ _ _ _ _ _ ⟨by simpa using hidle, hup, by omega⟩ hfile
        (fun h => hne (List.isEmpty_iff.2 h)) hrest
  | case10 => cases h
  | case11 here step rest hidle hup hsize target hlink hfollow =>
      cases h
      obtain ⟨hrest, hfollow⟩ := Bool.and_eq_true_iff.1 hfollow
      obtain rfl := List.isEmpty_iff.1 hrest
      exact .link _ _ _ _ ⟨by simpa using hidle, hup, by omega⟩ hlink (by simpa using hfollow)
  | case12 here step rest hidle hup hsize target hlink hfollow =>
      obtain ⟨left, rfl, htarget, hleads⟩ := hthrough h
      refine .followed _ _ _ target _ _ ⟨by simpa using hidle, hup, by omega⟩ hlink ?_ htarget hleads
      by_cases hrest : rest = []
      · exact .inr (by simpa [hrest] using hfollow)
      · exact .inl hrest

theorem leads_of_locateFrom (h : disk.locateFrom follow links here steps = .ok r) :
    Leads disk follow links here steps r := by
  induction links generalizing here steps r with
  | zero =>
      refine leads_of_locateSteps (fun hlink => ?_) h
      cases hlink
  | succ links ih =>
      refine leads_of_locateSteps (fun {target here rest r} hlink => ?_) h
      by_cases htarget : target = []
      · rw [if_pos htarget] at hlink
        cases hlink
      · rw [if_neg htarget] at hlink
        exact ⟨links, rfl, htarget, ih hlink⟩

theorem locateFrom_idle {step : Text} {rest : List Text} (hidle : Path.isIdle step) :
    disk.locateFrom follow links here (step :: rest) = disk.locateFrom follow links here rest := by
  cases links with
  | zero => exact if_pos hidle
  | succ links => exact if_pos hidle

theorem locateFrom_up {rest : List Text} :
    disk.locateFrom follow links here (("..".toList : Text) :: rest)
      = disk.locateFrom follow links here.dropLast rest := by
  cases links with
  | zero => rfl
  | succ links => rfl

/-- What is looked up for one step. -/
theorem locateFrom_cons {step : Text} {rest : List Text} (hstep : IsStep step) :
    disk.locateFrom follow links here (step :: rest) =
      match disk.lookup (here ++ [step]) with
      | none =>
        if rest.all (· = []) then .ok (.free (here ++ [step]) (!rest.isEmpty))
        else .error .missing
      | some .folder => disk.locateFrom follow links (here ++ [step]) rest
      | some (.file executable content) =>
        if rest.isEmpty then .ok (.entry (here ++ [step]) (.file executable content))
        else if rest.all (· = []) then .ok (.slashed (here ++ [step]))
        else .error .notFolder
      | some (.link target) =>
        if rest.isEmpty && !follow then .ok (.entry (here ++ [step]) (.link target))
        else
          match links with
          | 0 => .error .tooManyLinks
          | links + 1 =>
            if target = [] then .error .missing
            else
              disk.locateFrom follow links (if Path.isAbsolute target then [] else here)
                (Path.segments target ++ rest) := by
  cases links with
  | zero =>
      rewrite [locateFrom, locateSteps, if_neg (by simp [hstep.idle]), if_neg hstep.up,
        if_neg (Nat.not_lt.2 hstep.size)]
      rfl
  | succ links =>
      rewrite [locateFrom, locateSteps, if_neg (by simp [hstep.idle]), if_neg hstep.up,
        if_neg (Nat.not_lt.2 hstep.size)]
      rfl

theorem locateFrom_of_leads (h : Leads disk follow links here steps r) :
    disk.locateFrom follow links here steps = .ok r := by
  induction h with
  | arrived links here =>
      cases links with
      | zero => rfl
      | succ links => rfl
  | idle links here step rest r hidle hrest ih =>
      rw [locateFrom_idle hidle]
      exact ih
  | up links here rest r hrest ih =>
      rw [locateFrom_up]
      exact ih
  | free links here step rest hstep hnone hrest =>
      rw [locateFrom_cons hstep, hnone]
      exact if_pos hrest
  | folder links here step rest r hstep hfolder hrest ih =>
      rw [locateFrom_cons hstep, hfolder]
      exact ih
  | file links here step x c hstep hfile =>
      rw [locateFrom_cons hstep, hfile]
      rfl
  | slashed links here step rest x c hstep hfile hne hrest =>
      rw [locateFrom_cons hstep, hfile]
      show (if rest.isEmpty then _ else if rest.all (· = []) then _ else _) = _
      rw [if_neg (by simpa using hne), if_pos hrest]
  | link links here step target hstep hlink hfollow =>
      rw [locateFrom_cons hstep, hlink, hfollow]
      rfl
  | followed links here step target rest r hstep hlink hfollow htarget hrest ih =>
      have hgo : ¬ (rest.isEmpty && !follow) = true := by
        rcases hfollow with hne | hfollow
        · simp [hne]
        · simp [hfollow]
      rw [locateFrom_cons hstep, hlink]
      show (if rest.isEmpty && !follow then _ else if target = [] then _ else _) = _
      rw [if_neg hgo, if_neg htarget]
      exact ih

/-- Looking a path up finds the way it takes. -/
theorem locateFrom_eq_ok_iff :
    disk.locateFrom follow links here steps = .ok r ↔ Leads disk follow links here steps r :=
  ⟨leads_of_locateFrom, locateFrom_of_leads⟩

-- ============================================================ after a change

/-- The place a path leads to. -/
def Located.key : Located → Key
  | .entry k _ | .slashed k | .free k _ => k

/-- Two disks that agree at all places but those at and below one. -/
def AgreeOff (k : Key) (disk disk' : Disk) : Prop :=
  ∀ j, ¬ k <+: j → disk'.lookup j = disk.lookup j

/-- Two disks that agree at all places but one. -/
def AgreeBut (k : Key) (disk disk' : Disk) : Prop :=
  ∀ j, j ≠ k → disk'.lookup j = disk.lookup j

theorem AgreeBut.agreeOff (h : AgreeBut k disk disk') : AgreeOff k disk disk' := by
  intro j hj
  refine h j ?_
  rintro rfl
  exact hj (List.prefix_refl j)

/-- Whether no path goes on from the place: it holds a file or nothing. -/
def IsLeaf (disk : Disk) (k : Key) : Prop := ∀ e, disk.lookup k = some e → e.isFile

theorem not_prefix_dropLast (h : ¬ k <+: here) : ¬ k <+: here.dropLast :=
  fun hk => h (hk.trans (List.dropLast_prefix here))

/-- A place right below one that is off `k` is off `k` too, or is `k`. -/
theorem not_prefix_concat {step : Text} (h : ¬ k <+: here) (hne : here ++ [step] ≠ k) :
    ¬ k <+: here ++ [step] := by
  intro hk
  rcases List.prefix_concat_iff.1 hk with heq | hk
  · exact hne heq.symm
  · exact h hk

/-- A path that does not lead to the place of a change leads where it led before, if
it could not have gone on from there. -/
theorem Leads.congr (hagree : AgreeOff k disk disk') (hleaf : disk.IsLeaf k)
    (h : Leads disk follow links here steps r) (hhere : ¬ k <+: here) (hr : r.key ≠ k) :
    Leads disk' follow links here steps r := by
  have hroot : ¬ k <+: [] := by
    intro hk
    obtain rfl := List.prefix_nil.1 hk
    exact hhere (List.nil_prefix ..)
  induction h with
  | arrived links here => exact .arrived links here
  | idle links here step rest r hidle hrest ih => exact .idle _ _ _ _ _ hidle (ih hhere hr)
  | up links here rest r hrest ih => exact .up _ _ _ _ (ih (not_prefix_dropLast hhere) hr)
  | free links here step rest hstep hnone hrest =>
      rw [← hagree _ (not_prefix_concat hhere hr)] at hnone
      exact .free _ _ _ _ hstep hnone hrest
  | folder links here step rest r hstep hfolder hrest ih =>
      have hne : here ++ [step] ≠ k := by
        rintro rfl
        cases hleaf _ hfolder
      have hoff := not_prefix_concat hhere hne
      rw [← hagree _ hoff] at hfolder
      exact .folder _ _ _ _ _ hstep hfolder (ih hoff hr)
  | file links here step x c hstep hfile =>
      rw [← hagree _ (not_prefix_concat hhere hr)] at hfile
      exact .file _ _ _ _ _ hstep hfile
  | slashed links here step rest x c hstep hfile hne hrest =>
      rw [← hagree _ (not_prefix_concat hhere hr)] at hfile
      exact .slashed _ _ _ _ _ _ hstep hfile hne hrest
  | link links here step target hstep hlink hfollow =>
      rw [← hagree _ (not_prefix_concat hhere hr)] at hlink
      exact .link _ _ _ _ hstep hlink hfollow
  | followed links here step target rest r hstep hlink hfollow htarget hrest ih =>
      have hne : here ++ [step] ≠ k := by
        rintro rfl
        cases hleaf _ hlink
      rw [← hagree _ (not_prefix_concat hhere hne)] at hlink
      refine .followed _ _ _ target _ _ hstep hlink hfollow htarget (ih ?_ hr)
      split
      · exact hroot
      · exact hhere

/-- What a path without a slash at its end finds at a place. -/
def place (disk : Disk) (k : Key) : Located :=
  match disk.lookup k with
  | some e => .entry k e
  | none => .free k false

theorem place_of_some (h : disk.lookup k = some e) : disk.place k = .entry k e := by
  rw [place, h]

theorem place_of_none (h : disk.lookup k = none) : disk.place k = .free k false := by
  rw [place, h]

theorem key_place (disk : Disk) (k : Key) : (disk.place k).key = k := by
  cases h : disk.lookup k with
  | none => rw [place_of_none h]; rfl
  | some e => rw [place_of_some h]; rfl

/-- The last step to a place finds what stands there. -/
theorem leads_place {step : Text} (hstep : IsStep step) (hleaf : disk.IsLeaf (here ++ [step])) :
    Leads disk follow links here [step] (disk.place (here ++ [step])) := by
  cases h : disk.lookup (here ++ [step]) with
  | none =>
      rw [place_of_none h]
      exact .free _ _ _ [] hstep h rfl
  | some e =>
      rw [place_of_some h]
      cases e with
      | file x c => exact .file _ _ _ _ _ hstep h
      | folder => cases hleaf _ h
      | link target => cases hleaf _ h

/-- A path that leads to the place of a change leads there still, and finds what
stands there now. -/
theorem Leads.at (hagree : AgreeOff k disk disk') (hleaf : disk.IsLeaf k) (hleaf' : disk'.IsLeaf k)
    (h : Leads disk follow links here steps (disk.place k)) (hhere : ¬ k <+: here) :
    Leads disk' follow links here steps (disk'.place k) := by
  have hroot : ¬ k <+: [] := by
    intro hk
    obtain rfl := List.prefix_nil.1 hk
    exact hhere (List.nil_prefix ..)
  have hkey := key_place disk k
  generalize hr : disk.place k = r at h hkey
  induction h with
  | arrived links here =>
      obtain rfl : here = k := hkey
      exact absurd (List.prefix_refl here) hhere
  | idle links here step rest r hidle hrest ih => exact .idle _ _ _ _ _ hidle (ih hhere hr hkey)
  | up links here rest r hrest ih => exact .up _ _ _ _ (ih (not_prefix_dropLast hhere) hr hkey)
  | free links here step rest hstep hnone hrest =>
      obtain rfl : here ++ [step] = k := hkey
      rw [place_of_none hnone] at hr
      have hempty : rest = [] := by simpa using hr
      rw [hempty]
      exact leads_place hstep hleaf'
  | folder links here step rest r hstep hfolder hrest ih =>
      have hne : here ++ [step] ≠ k := by
        rintro rfl
        cases hleaf _ hfolder
      have hoff := not_prefix_concat hhere hne
      rw [← hagree _ hoff] at hfolder
      exact .folder _ _ _ _ _ hstep hfolder (ih hoff hr hkey)
  | file links here step x c hstep hfile =>
      obtain rfl : here ++ [step] = k := hkey
      exact leads_place hstep hleaf'
  | slashed links here step rest x c hstep hfile hne hrest =>
      obtain rfl : here ++ [step] = k := hkey
      rw [place_of_some hfile] at hr
      cases hr
  | link links here step target hstep hlink hfollow =>
      obtain rfl : here ++ [step] = k := hkey
      exact leads_place hstep hleaf'
  | followed links here step target rest r hstep hlink hfollow htarget hrest ih =>
      have hne : here ++ [step] ≠ k := by
        rintro rfl
        cases hleaf _ hlink
      rw [← hagree _ (not_prefix_concat hhere hne)] at hlink
      refine .followed _ _ _ target _ _ hstep hlink hfollow htarget (ih ?_ hr hkey)
      split
      · exact hroot
      · exact hhere

/-- A path that leads to a file or to a link leads to what stands at its place. -/
theorem Leads.lookup_of_ne (h : Leads disk follow links here steps (.entry k e)) (hne : e ≠ .folder) :
    disk.lookup k = some e := by
  generalize hr : Located.entry k e = r at h
  induction h with
  | arrived links here =>
      cases hr
      exact absurd rfl hne
  | idle links here step rest r hidle hrest ih => exact ih hr
  | up links here rest r hrest ih => exact ih hr
  | free links here step rest hstep hnone hrest => cases hr
  | folder links here step rest r hstep hfolder hrest ih => exact ih hr
  | file links here step x c hstep hfile =>
      cases hr
      exact hfile
  | slashed links here step rest x c hstep hfile hne hrest => cases hr
  | link links here step target hstep hlink hfollow =>
      cases hr
      exact hlink
  | followed links here step target rest r hstep hlink hfollow htarget hrest ih => exact ih hr

theorem Leads.lookup {x : Bool} {c : Content}
    (h : Leads disk follow links here steps (.entry k (.file x c))) :
    disk.lookup k = some (.file x c) :=
  h.lookup_of_ne (by simp)

end SiteScaffold.Disk

/-
The way up to a folder. A path that leads somewhere first passes over folders and
links, and what comes after them starts from the folder they reach (`leads_append`). So
a path whose last step is a name leads, if the last step is not followed, to what stands
under that name in the folder that the steps before it reach (`locate_name`).

A way once open stays open: more entries do not change it (`Reaches.mono`), and neither
does a change at a place that is no folder and no link (`Reaches.congr`).
-/
import SiteScaffold.Proofs.Disk.TextFile
import SiteScaffold.Proofs.Path

namespace SiteScaffold.Disk

open Path (IsName)

variable {disk disk' : Disk} {j k here there there' : Key} {e : Entry} {follow : Bool}
  {links left left' : Nat} {steps rest : List Text} {step name path : Text} {r r' : Located}

-- ================================================================ up to a folder

/-- The way from a folder, with links to follow, to another one, with what is left of
them. -/
inductive Reaches (disk : Disk) : Nat → Key → List Text → Nat → Key → Prop
  | arrived {links : Nat} {here : Key} : Reaches disk links here [] links here
  | idle {links left : Nat} {here there : Key} {step : Text} {rest : List Text}
      (hidle : Path.isIdle step) (hrest : Reaches disk links here rest left there) :
      Reaches disk links here (step :: rest) left there
  | up {links left : Nat} {here there : Key} {rest : List Text}
      (hrest : Reaches disk links here.dropLast rest left there) :
      Reaches disk links here (("..".toList : Text) :: rest) left there
  | folder {links left : Nat} {here there : Key} {step : Text} {rest : List Text}
      (hstep : IsStep step) (hfolder : disk.lookup (here ++ [step]) = some .folder)
      (hrest : Reaches disk links (here ++ [step]) rest left there) :
      Reaches disk links here (step :: rest) left there
  | followed {links left : Nat} {here there : Key} {step target : Text} {rest : List Text}
      (hstep : IsStep step) (hlink : disk.lookup (here ++ [step]) = some (.link target))
      (htarget : target ≠ [])
      (hrest : Reaches disk links (if Path.isAbsolute target then [] else here)
        (Path.segments target ++ rest) left there) :
      Reaches disk (links + 1) here (step :: rest) left there

/-- There is one way. -/
theorem Reaches.unique (h : Reaches disk links here steps left there)
    (h' : Reaches disk links here steps left' there') : left' = left ∧ there' = there := by
  induction h with
  | arrived =>
      cases h'
      exact ⟨rfl, rfl⟩
  | idle hidle hrest ih =>
      cases h' with
      | idle hidle' hrest' => exact ih hrest'
      | up hrest' => cases hidle
      | folder hstep hfolder hrest' => simp [hstep.idle] at hidle
      | followed hstep hlink htarget hrest' => simp [hstep.idle] at hidle
  | up hrest ih =>
      cases h' with
      | idle hidle' hrest' => cases hidle'
      | up hrest' => exact ih hrest'
      | folder hstep hfolder hrest' => exact absurd rfl hstep.up
      | followed hstep hlink htarget hrest' => exact absurd rfl hstep.up
  | folder hstep hfolder hrest ih =>
      cases h' with
      | idle hidle' hrest' => simp [hstep.idle] at hidle'
      | up hrest' => exact absurd rfl hstep.up
      | folder hstep' hfolder' hrest' => exact ih hrest'
      | followed hstep' hlink' htarget' hrest' =>
          rw [hfolder] at hlink'
          cases hlink'
  | followed hstep hlink htarget hrest ih =>
      cases h' with
      | idle hidle' hrest' => simp [hstep.idle] at hidle'
      | up hrest' => exact absurd rfl hstep.up
      | folder hstep' hfolder' hrest' =>
          rw [hlink] at hfolder'
          cases hfolder'
      | followed hstep' hlink' htarget' hrest' =>
          rw [hlink] at hlink'
          cases hlink'
          exact ih hrest'

/-- The way is the same as long as the folders and links on it are there. -/
theorem Reaches.of_kept (hkept : ∀ k e, e.isFile = false → disk.lookup k = some e → disk'.lookup k = some e)
    (h : Reaches disk links here steps left there) : Reaches disk' links here steps left there := by
  induction h with
  | arrived => exact .arrived
  | idle hidle hrest ih => exact .idle hidle ih
  | up hrest ih => exact .up ih
  | folder hstep hfolder hrest ih => exact .folder hstep (hkept _ _ rfl hfolder) ih
  | followed hstep hlink htarget hrest ih => exact .followed hstep (hkept _ _ rfl hlink) htarget ih

/-- More entries do not change the way. -/
theorem Reaches.mono (hkept : ∀ k e, disk.lookup k = some e → disk'.lookup k = some e)
    (h : Reaches disk links here steps left there) : Reaches disk' links here steps left there :=
  h.of_kept fun k e _ => hkept k e

/-- The way does not pass a place that is no folder and no link, and does not change when
that does. -/
theorem Reaches.congr (hagree : AgreeOff k disk disk') (hleaf : disk.IsLeaf k)
    (h : Reaches disk links here steps left there) (hhere : ¬ k <+: here) :
    Reaches disk' links here steps left there ∧ ¬ k <+: there := by
  have hroot : ¬ k <+: [] := by
    intro hk
    obtain rfl := List.prefix_nil.1 hk
    exact hhere (List.nil_prefix ..)
  induction h with
  | arrived => exact ⟨.arrived, hhere⟩
  | idle hidle hrest ih =>
      obtain ⟨hreaches, hthere⟩ := ih hhere
      exact ⟨.idle hidle hreaches, hthere⟩
  | up hrest ih =>
      obtain ⟨hreaches, hthere⟩ := ih (not_prefix_dropLast hhere)
      exact ⟨.up hreaches, hthere⟩
  | folder hstep hfolder hrest ih =>
      have hoff := not_prefix_concat hhere fun heq => by
        rw [heq] at hfolder
        cases hleaf _ hfolder
      obtain ⟨hreaches, hthere⟩ := ih hoff
      rw [← hagree _ hoff] at hfolder
      exact ⟨.folder hstep hfolder hreaches, hthere⟩
  | followed hstep hlink htarget hrest ih =>
      have hoff := not_prefix_concat hhere fun heq => by
        rw [heq] at hlink
        cases hleaf _ hlink
      rw [← hagree _ hoff] at hlink
      obtain ⟨hreaches, hthere⟩ := ih (by
        split
        · exact hroot
        · exact hhere)
      exact ⟨.followed hstep hlink htarget hreaches, hthere⟩

theorem Reaches.append (h : Reaches disk links here steps left there)
    (hrest : Reaches disk left there rest left' there') :
    Reaches disk links here (steps ++ rest) left' there' := by
  induction h with
  | arrived => exact hrest
  | idle hidle _ ih => exact .idle hidle (ih hrest)
  | up _ ih => exact .up (ih hrest)
  | folder hstep hfolder _ ih => exact .folder hstep hfolder (ih hrest)
  | followed hstep hlink htarget _ ih =>
      refine .followed hstep hlink htarget ?_
      have htail := ih hrest
      rw [List.append_assoc] at htail
      exact htail

/-- A last step that is idle is not needed. -/
theorem Reaches.of_idle {step : Text} (h : Reaches disk links here (steps ++ [step]) left there)
    (hidle : Path.isIdle step) : Reaches disk links here steps left there := by
  generalize hsteps : steps ++ [step] = all at h
  induction h generalizing steps with
  | arrived => simp at hsteps
  | @idle links left here there first rest hfirst hrest ih =>
      cases steps with
      | nil =>
          cases hsteps
          exact hrest
      | cons next steps =>
          cases hsteps
          exact .idle hfirst (ih rfl)
  | @up links left here there rest hrest ih =>
      cases steps with
      | nil =>
          cases hsteps
          cases hidle
      | cons next steps =>
          cases hsteps
          exact .up (ih rfl)
  | @folder links left here there first rest hfirst hfolder hrest ih =>
      cases steps with
      | nil =>
          cases hsteps
          rw [hfirst.idle] at hidle
          cases hidle
      | cons next steps =>
          cases hsteps
          exact .folder hfirst hfolder (ih rfl)
  | @followed links left here there first target rest hfirst hlink htarget hrest ih =>
      cases steps with
      | nil =>
          cases hsteps
          rw [hfirst.idle] at hidle
          cases hidle
      | cons next steps =>
          cases hsteps
          exact .followed hfirst hlink htarget (ih (List.append_assoc ..))

theorem Reaches.of_idles {idle : List Text} (h : Reaches disk links here (steps ++ idle) left there)
    (hidle : ∀ step ∈ idle, Path.isIdle step) : Reaches disk links here steps left there := by
  induction idle generalizing steps with
  | nil =>
      rw [List.append_nil] at h
      exact h
  | cons step idle ih =>
      rw [List.append_cons] at h
      exact (ih h fun s hs => hidle s (List.mem_cons_of_mem _ hs)).of_idle (hidle step List.mem_cons_self)

-- ========================================================== paths that go on from it

theorem Leads.unique (h : Leads disk follow links here steps r)
    (h' : Leads disk follow links here steps r') : r' = r := by
  have hlocate := locateFrom_of_leads h
  rw [locateFrom_of_leads h'] at hlocate
  cases hlocate
  rfl

/-- More entries do not change where a path leads that leads to an entry. -/
theorem Leads.mono (hkept : ∀ k e, disk.lookup k = some e → disk'.lookup k = some e)
    (h : Leads disk follow links here steps (.entry k e)) :
    Leads disk' follow links here steps (.entry k e) := by
  generalize hr : Located.entry k e = r at h
  induction h with
  | arrived links here => exact .arrived links here
  | idle links here step rest r hidle hrest ih => exact .idle _ _ _ _ _ hidle (ih hr)
  | up links here rest r hrest ih => exact .up _ _ _ _ (ih hr)
  | free links here step rest hstep hnone hrest => cases hr
  | folder links here step rest r hstep hfolder hrest ih =>
      exact .folder _ _ _ _ _ hstep (hkept _ _ hfolder) (ih hr)
  | file links here step x c hstep hfile => exact .file _ _ _ _ _ hstep (hkept _ _ hfile)
  | slashed links here step rest x c hstep hfile hne hrest => cases hr
  | link links here step target hstep hlink hfollow =>
      exact .link _ _ _ _ hstep (hkept _ _ hlink) hfollow
  | followed links here step target rest r hstep hlink hfollow htarget hrest ih =>
      exact .followed _ _ _ target _ _ hstep (hkept _ _ hlink) hfollow htarget (ih hr)

theorem Reaches.leads (h : Reaches disk links here steps left there)
    (hrest : Leads disk follow left there rest r) (hne : rest ≠ []) :
    Leads disk follow links here (steps ++ rest) r := by
  induction h with
  | arrived => exact hrest
  | idle hidle _ ih => exact .idle _ _ _ _ _ hidle (ih hrest)
  | up _ ih => exact .up _ _ _ _ (ih hrest)
  | folder hstep hfolder _ ih => exact .folder _ _ _ _ _ hstep hfolder (ih hrest)
  | followed hstep hlink htarget _ ih =>
      have htail := ih hrest
      rw [List.append_assoc] at htail
      exact .followed _ _ _ _ _ _ hstep hlink (.inl (by simp [hne])) htarget htail

/-- A path that leads to a folder reaches it. -/
theorem Leads.reaches (h : Leads disk true links here steps (.entry k .folder)) :
    ∃ left, Reaches disk links here steps left k := by
  generalize hr : Located.entry k .folder = r at h
  induction h with
  | arrived links here =>
      cases hr
      exact ⟨links, .arrived⟩
  | idle links here step rest r hidle hrest ih =>
      obtain ⟨left, hreaches⟩ := ih hr
      exact ⟨left, .idle hidle hreaches⟩
  | up links here rest r hrest ih =>
      obtain ⟨left, hreaches⟩ := ih hr
      exact ⟨left, .up hreaches⟩
  | free links here step rest hstep hnone hrest => cases hr
  | folder links here step rest r hstep hfolder hrest ih =>
      obtain ⟨left, hreaches⟩ := ih hr
      exact ⟨left, .folder hstep hfolder hreaches⟩
  | file links here step x c hstep hfile => cases hr
  | slashed links here step rest x c hstep hfile hne hrest => cases hr
  | link links here step target hstep hlink hfollow => cases hfollow
  | followed links here step target rest r hstep hlink hfollow htarget hrest ih =>
      obtain ⟨left, hreaches⟩ := ih hr
      exact ⟨left, .followed hstep hlink htarget hreaches⟩

theorem Reaches.leads_folder (h : Reaches disk links here steps left there) :
    Leads disk true links here steps (.entry there .folder) := by
  induction h with
  | arrived => exact .arrived _ _
  | idle hidle _ ih => exact .idle _ _ _ _ _ hidle ih
  | up _ ih => exact .up _ _ _ _ ih
  | folder hstep hfolder _ ih => exact .folder _ _ _ _ _ hstep hfolder ih
  | followed hstep hlink htarget _ ih => exact .followed _ _ _ _ _ _ hstep hlink (.inr rfl) htarget ih

/-- A way that splits behind any first steps splits behind none, too. -/
theorem Leads.split_of_cons {tail : List Text} (h : Leads disk follow links here tail r)
    (ih : ∀ step more, step :: (more ++ rest) = tail → ∃ left there,
      Reaches disk links here (step :: more) left there ∧ Leads disk follow left there rest r)
    (htail : steps ++ rest = tail) :
    ∃ left there, Reaches disk links here steps left there ∧ Leads disk follow left there rest r := by
  cases steps with
  | nil =>
      obtain rfl : rest = tail := htail
      exact ⟨links, here, .arrived, h⟩
  | cons step more => exact ih step more htail

/-- A path that goes on with a name leads there from the folder that the steps before it
reach. -/
theorem Leads.split (h : Leads disk follow links here (steps ++ rest) r)
    (hrest : rest.all (· = []) = false) :
    ∃ left there, Reaches disk links here steps left there ∧ Leads disk follow left there rest r := by
  have hall : ∀ s : List Text, (s ++ rest).all (· = []) = false := by
    intro s
    rw [List.all_append, hrest, Bool.and_false]
  have hempty : ∀ s : List Text, s ++ rest ≠ [] := by
    intro s hnil
    have hsome := hall s
    rw [hnil] at hsome
    cases hsome
  cases steps with
  | nil => exact ⟨links, here, .arrived, h⟩
  | cons step steps =>
      rw [List.cons_append] at h
      generalize hsteps : step :: (steps ++ rest) = all at h
      induction h generalizing step steps with
      | arrived links here => cases hsteps
      | idle links here first tail r hidle htail ih =>
          obtain ⟨rfl, hon⟩ := List.cons_eq_cons.1 hsteps
          obtain ⟨left, there, hreaches, hleads⟩ := htail.split_of_cons ih hon
          exact ⟨left, there, .idle hidle hreaches, hleads⟩
      | up links here tail r htail ih =>
          obtain ⟨rfl, hon⟩ := List.cons_eq_cons.1 hsteps
          obtain ⟨left, there, hreaches, hleads⟩ := htail.split_of_cons ih hon
          exact ⟨left, there, .up hreaches, hleads⟩
      | free links here first tail hstep hnone htail =>
          obtain ⟨rfl, rfl⟩ := List.cons_eq_cons.1 hsteps
          rw [hall] at htail
          cases htail
      | folder links here first tail r hstep hfolder htail ih =>
          obtain ⟨rfl, hon⟩ := List.cons_eq_cons.1 hsteps
          obtain ⟨left, there, hreaches, hleads⟩ := htail.split_of_cons ih hon
          exact ⟨left, there, .folder hstep hfolder hreaches, hleads⟩
      | file links here first x c hstep hfile =>
          obtain ⟨-, hnil⟩ := List.cons_eq_cons.1 hsteps
          exact absurd hnil (hempty steps)
      | slashed links here first tail x c hstep hfile hne htail =>
          obtain ⟨rfl, rfl⟩ := List.cons_eq_cons.1 hsteps
          rw [hall] at htail
          cases htail
      | link links here first target hstep hlink hfollow =>
          obtain ⟨-, hnil⟩ := List.cons_eq_cons.1 hsteps
          exact absurd hnil (hempty steps)
      | followed links here first target tail r hstep hlink hfollow htarget htail ih =>
          obtain ⟨rfl, rfl⟩ := List.cons_eq_cons.1 hsteps
          -- the steps of the target come before those that are left
          obtain ⟨left, there, hreaches, hleads⟩ := htail.split_of_cons ih (List.append_assoc ..)
          exact ⟨left, there, .followed hstep hlink htarget hreaches, hleads⟩

/-- A path that leads to an entry leads to one if its last link is not followed. -/
theorem Leads.unfollowed (h : Leads disk true links here steps (.entry k e)) :
    ∃ k' e', Leads disk false links here steps (.entry k' e') := by
  generalize hr : Located.entry k e = r at h
  induction h with
  | arrived links here => exact ⟨here, .folder, .arrived links here⟩
  | idle links here step rest r hidle hrest ih =>
      obtain ⟨k', e', hleads⟩ := ih hr
      exact ⟨k', e', .idle _ _ _ _ _ hidle hleads⟩
  | up links here rest r hrest ih =>
      obtain ⟨k', e', hleads⟩ := ih hr
      exact ⟨k', e', .up _ _ _ _ hleads⟩
  | free links here step rest hstep hnone hrest => cases hr
  | folder links here step rest r hstep hfolder hrest ih =>
      obtain ⟨k', e', hleads⟩ := ih hr
      exact ⟨k', e', .folder _ _ _ _ _ hstep hfolder hleads⟩
  | file links here step x c hstep hfile => exact ⟨_, _, .file _ _ _ _ _ hstep hfile⟩
  | slashed links here step rest x c hstep hfile hne hrest => cases hr
  | link links here step target hstep hlink hfollow => cases hfollow
  | followed links here step target rest r hstep hlink hfollow htarget hrest ih =>
      cases rest with
      | nil => exact ⟨_, _, .link _ _ _ _ hstep hlink rfl⟩
      | cons next rest =>
          obtain ⟨k', e', hleads⟩ := ih hr
          exact ⟨k', e', .followed _ _ _ _ _ _ hstep hlink (.inl (by simp)) htarget hleads⟩

-- ================================================================ a name at the end

theorem IsStep.isName (h : IsStep step) : IsName step := ⟨h.idle, h.up⟩

theorem all_single (h : IsName step) : [step].all (· = []) = false := by
  simp [h.not_nil]

/-- A name leads to what stands under it in a folder. -/
theorem leads_name (hname : IsName name) :
    Leads disk false left there [name] r ↔ IsStep name ∧ r = disk.place (there ++ [name]) := by
  constructor
  · intro h
    cases h with
    | idle _ _ _ _ _ hidle _ =>
        rw [hname.idle] at hidle
        cases hidle
    | up _ _ _ _ _ => exact absurd rfl hname.up
    | free _ _ _ _ hstep hnone _ => exact ⟨hstep, (place_of_none hnone).symm⟩
    | folder _ _ _ _ _ hstep hfolder hrest =>
        cases hrest
        exact ⟨hstep, (place_of_some hfolder).symm⟩
    | file _ _ _ _ _ hstep hfile => exact ⟨hstep, (place_of_some hfile).symm⟩
    | slashed _ _ _ _ _ _ _ _ hne _ => exact absurd rfl hne
    | link _ _ _ _ hstep hlink _ => exact ⟨hstep, (place_of_some hlink).symm⟩
    | followed _ _ _ _ _ _ _ _ hfollow _ _ =>
        rcases hfollow with hne | hfollow
        · exact absurd rfl hne
        · cases hfollow
  · rintro ⟨hstep, rfl⟩
    cases h : disk.lookup (there ++ [name]) with
    | none =>
        rw [place_of_none h]
        exact .free _ _ _ [] hstep h rfl
    | some e =>
        rw [place_of_some h]
        cases e with
        | folder => exact .folder _ _ _ _ _ hstep h (.arrived _ _)
        | file x c => exact .file _ _ _ _ _ hstep h
        | link target => exact .link _ _ _ _ hstep h rfl

/-- A path with a name at its end leads to what stands under that name in the folder
that the rest of it reaches. -/
theorem locate_name (hpath : Path.segments path = steps ++ [name]) (hname : IsName name) :
    disk.locate false path = .ok r ↔ IsPath path ∧ IsStep name
      ∧ ∃ left there, Reaches disk 40 [] steps left there ∧ r = disk.place (there ++ [name]) := by
  rw [locate_eq_ok_iff, hpath]
  constructor
  · rintro ⟨hispath, hleads⟩
    obtain ⟨left, there, hreaches, hlast⟩ := hleads.split (all_single hname)
    obtain ⟨hstep, hr⟩ := (leads_name hname).1 hlast
    exact ⟨hispath, hstep, left, there, hreaches, hr⟩
  · rintro ⟨hispath, hstep, left, there, hreaches, hr⟩
    exact ⟨hispath, hreaches.leads ((leads_name hname).2 ⟨hstep, hr⟩) (by simp)⟩

/-- The place of an entry that a path leads to has the name at the end of the path. -/
theorem getLast?_of_locate (hpath : Path.segments path = steps ++ [name]) (hname : IsName name)
    (h : disk.locate false path = .ok r) : r.key.getLast? = some name := by
  obtain ⟨-, -, left, there, -, rfl⟩ := (locate_name hpath hname).1 h
  rw [key_place]
  exact List.getLast?_concat

end SiteScaffold.Disk

/-
Dissolving the folder named after the server, whatever order its entries are listed in. What is
left is told by places alone (`Unwrapped`): what stood in the folder stands beside it, the folder
is gone, and everything else is where it was. Two disks of which this is true look the same
(`Unwrapped.lookup_eq`), so the order does not matter, and a second attempt finds no folder
(`hoistBy_again`).

Nothing is assumed about the entries of the folder but that their names are free beside it and
that the system takes their paths. They may be links, with one exception that has to do with the
path of the export and not with what is in it: a way that goes through the folder is lost with it
(`hoist_loses_way`).
-/
import SiteScaffold.Proofs.Export.Hoist

namespace SiteScaffold.Export

open Disk (Steady IsPath IsStep AgreeAround)
open Path (IsPlain under)

variable {disk disk' disk'' : Disk} {site wrapper : Text} {j k top : Key} {port : Nat}

/-- What is left of an export once a folder in it was dissolved. -/
structure Unwrapped (top : Key) (wrapper : Text) (disk disk' : Disk) : Prop where
  /-- What stood somewhere in the folder stands there in the export. -/
  up : ∀ k e, k ≠ [] → disk.lookup (top ++ wrapper :: k) = some e → disk'.lookup (top ++ k) = some e
  /-- The folder is gone. -/
  gone : ∀ k, disk'.lookup (top ++ wrapper :: k) = none
  /-- All other places are as they were. -/
  same : ∀ j, ¬ top ++ [wrapper] <+: j →
    (∀ k, k ≠ [] → j = top ++ k → disk.lookup (top ++ wrapper :: k) = none) → disk'.lookup j = disk.lookup j

/-- There is one such disk, as far as its places tell. -/
theorem Unwrapped.lookup_eq (h : Unwrapped top wrapper disk disk') (h' : Unwrapped top wrapper disk disk'')
    (j : Key) : disk'.lookup j = disk''.lookup j := by
  by_cases hinside : top ++ [wrapper] <+: j
  · obtain ⟨k, rfl⟩ := hinside
    rw [List.append_assoc, List.singleton_append, h.gone, h'.gone]
  · by_cases hup : ∃ k e, k ≠ [] ∧ j = top ++ k ∧ disk.lookup (top ++ wrapper :: k) = some e
    · obtain ⟨k, e, hk, rfl, hlookup⟩ := hup
      rw [h.up k e hk hlookup, h'.up k e hk hlookup]
    · have hnone : ∀ k, k ≠ [] → j = top ++ k → disk.lookup (top ++ wrapper :: k) = none := fun k hk hj =>
        Option.eq_none_iff_forall_ne_some.2 fun e he => hup ⟨k, e, hk, hj, he⟩
      rw [h.same j hinside hnone, h'.same j hinside hnone]

/-- A folder of which every entry went up, and which went then, is dissolved. -/
theorem unwrapped_of_dissolved (hclosed : disk.Closed) (h : Nested site top wrapper disk)
    (hinside : ∀ k, k ≠ [] → disk'.lookup (top ++ k) = dissolved top wrapper disk k)
    (haround : AgreeAround top disk disk') : Unwrapped top wrapper disk disk' where
  up := by
    intro k e hk hlookup
    rw [hinside k hk, dissolved, hlookup, Option.some_or]
  gone := by
    intro k
    -- otherwise the folder had an entry of its own name, which is not free beside it
    have hnone : disk.lookup (top ++ [wrapper, wrapper]) = none := by
      refine Option.eq_none_iff_forall_ne_some.2 fun e he => ?_
      have hfree := h.free wrapper e he
      rw [h.folder] at hfree
      cases hfree
    have hbelow : disk.lookup (top ++ wrapper :: wrapper :: k) = none := by
      have hdeep := hclosed.none_append hnone k
      rwa [List.append_assoc] at hdeep
    rw [hinside (wrapper :: k) (by simp), dissolved, hbelow, Option.none_or, List.head?_cons, if_pos rfl]
  same := by
    intro j hj hnone
    by_cases hbelow : ∃ k, k ≠ [] ∧ j = top ++ k
    · obtain ⟨k, hk, rfl⟩ := hbelow
      rw [hinside k hk, dissolved, hnone k hk rfl, Option.none_or, if_neg]
      intro hhead
      obtain ⟨name, t, rfl⟩ := List.exists_cons_of_ne_nil hk
      obtain rfl : name = wrapper := by simpa using hhead
      exact hj (prefix_cons_iff.2 rfl)
    · refine haround j fun hpre => ?_
      obtain ⟨k, rfl⟩ := hpre
      by_cases hk : k = []
      · rw [hk, List.append_nil]
      · exact absurd ⟨k, hk, rfl⟩ hbelow

/-- Where nothing stands there is no folder to list. -/
theorem isFolder_of_none {name : Text} (steady : Steady site top disk) (hname : IsPlain name)
    (hnone : disk.lookup (top ++ [name]) = none) : disk.isFolder (Path.join site name) = false := by
  rw [Bool.eq_false_iff, ← Path.under_singleton]
  intro hfolder
  obtain ⟨k, hlocate⟩ := Disk.isFolder_eq_true_iff.1 hfolder
  obtain ⟨j, e, hentry⟩ := Disk.unfollowed hlocate
  have hfolder : disk.lookup (top ++ []) = some .folder := by
    rw [List.append_nil]
    exact steady.folder
  have hplace := ((steady.locate (k := []) (by simp) hname hfolder).1 hentry).2.2
  rw [List.nil_append, Disk.place_of_none hnone] at hplace
  cases hplace

/-- A second attempt finds no folder. -/
theorem hoistBy_again {order : List Text → List Text} (steady : Steady site top disk) (hclosed : disk'.Closed)
    (haround : AgreeAround top disk disk') (h : Unwrapped top (hostFolder port) disk disk') :
    (hoistBy order site port).on disk' = (.ok false, disk') :=
  hoistBy_of_not_folder (isFolder_of_none (steady.congr haround hclosed) (isPlain_hostFolder port) (h.gone []))

/-- Whether a rearrangement lists each of some names once. -/
def IsListing (order : List Text → List Text) : Prop := ∀ names, (order names).Perm names

/-- A folder named after the server is dissolved whatever order its entries are listed in: what
was in it is beside it then, nothing else changes, and a second attempt finds none. What is left
looks the same for all orders. Where the name leads to no folder nothing happens. -/
theorem hoistBy_unwraps (site : Text) (port : Nat) :
    (∀ top disk, Steady site top disk → disk.Named top → Nested site top (hostFolder port) disk →
      ∃ left, (hoist site port).on disk = (.ok true, left) ∧ (hoist site port).on left = (.ok false, left)
        ∧ Unwrapped top (hostFolder port) disk left
        ∧ ∀ order, IsListing order → ∃ disk', (hoistBy order site port).on disk = (.ok true, disk')
          ∧ Unwrapped top (hostFolder port) disk disk' ∧ (∀ j, disk'.lookup j = left.lookup j)
          ∧ ∀ again, IsListing again → (hoistBy again site port).on disk' = (.ok false, disk'))
      ∧ ∀ disk order, IsListing order → disk.isFolder (Path.join site (hostFolder port)) = false →
        (hoistBy order site port).on disk = (.ok false, disk) := by
  refine ⟨fun top disk steady hnamed hnested => ?_, fun disk order _ => hoistBy_of_not_folder⟩
  have hunwraps : ∀ order, IsListing order → ∃ disk', (hoistBy order site port).on disk = (.ok true, disk')
      ∧ Unwrapped top (hostFolder port) disk disk'
      ∧ ∀ again, (hoistBy again site port).on disk' = (.ok false, disk') := by
    intro order horder
    obtain ⟨disk', hrun, hinside, haround, hclosed⟩ := hoistBy_nested steady hnamed hnested horder
    have hunwrapped := unwrapped_of_dissolved steady.closed hnested hinside haround
    exact ⟨disk', hrun, hunwrapped, fun _ => hoistBy_again steady hclosed haround hunwrapped⟩
  obtain ⟨left, hrun, hleft, hagain⟩ := hunwraps id fun _ => .refl _
  rw [hoistBy_id] at hrun
  refine ⟨left, hrun, ?_, hleft, fun order horder => ?_⟩
  · rw [← hoistBy_id]
    exact hagain id
  · obtain ⟨disk', hrun', hunwrapped, hagain'⟩ := hunwraps order horder
    exact ⟨disk', hrun', hunwrapped, hunwrapped.lookup_eq hleft, fun again _ => hagain' again⟩

/-- An export with two entries in the folder, one of them a link, and a file beside it. -/
def wrapped : Disk :=
  (((Disk.blank.insert ["build".toList] .folder).insert ["build".toList, "localhost:3000".toList] .folder).insert
    ["build".toList, "localhost:3000".toList, "index.html".toList] (.file false (.text "<h1>Home</h1>"))).insert
    ["build".toList, "localhost:3000".toList, "start.html".toList] (.link "index.html")
  |>.insert ["build".toList, "robots.txt".toList] (.file false (.text "Disallow:"))

theorem named_wrapped : wrapped.Named ["build".toList] := by
  have hentries : ∀ entry ∈ wrapped.entries, ∀ name ∈ entry.1.getLast?, IsStep name ∧ '/' ∉ name := by
    decide +kernel
  intro k name e hlookup
  rw [Disk.lookup, if_neg (by simp)] at hlookup
  refine hentries _ (Disk.mem_of_lookup hlookup) name ?_
  rw [← List.append_assoc, List.getLast?_concat]
  rfl

theorem steady_wrapped : Steady "build" ["build".toList] wrapped := by
  refine ⟨Disk.closed_of_forall_mem (by decide +kernel), fun disk' haround => ⟨40, ?_⟩⟩
  have hbuild : disk'.lookup ["build".toList] = some .folder := by
    rw [haround _ fun _ => rfl]
    decide +kernel
  exact .folder (by decide +kernel) hbuild .arrived

theorem nested_wrapped : Nested "build" ["build".toList] (hostFolder 3000) wrapped := by
  have hinside : ∀ name e, wrapped.lookup (["build".toList] ++ [hostFolder 3000, name]) = some e →
      name = "index.html".toList ∨ name = "start.html".toList := by
    have hdeep : ∀ entry ∈ wrapped.entries, entry.1.length = 3 →
        entry.1 = ["build".toList, hostFolder 3000, "index.html".toList]
          ∨ entry.1 = ["build".toList, hostFolder 3000, "start.html".toList] := by
      decide +kernel
    intro name e hlookup
    rw [Disk.lookup, if_neg (by simp)] at hlookup
    simpa using hdeep _ (Disk.mem_of_lookup hlookup) rfl
  refine ⟨by decide +kernel, fun name e hlookup => ?_, by decide +kernel, fun name e hlookup => ?_⟩
  · rcases hinside name e hlookup with rfl | rfl
    · decide +kernel
    · decide +kernel
  · rcases hinside name e hlookup with rfl | rfl
    · decide +kernel
    · decide +kernel

theorem hoistBy_unwraps_reversed :
    Steady "build" ["build".toList] wrapped ∧ wrapped.Named ["build".toList]
      ∧ Nested "build" ["build".toList] (hostFolder 3000) wrapped ∧ IsListing List.reverse
      ∧ ∃ disk', (hoistBy List.reverse "build" 3000).on wrapped = (.ok true, disk')
        ∧ disk'.lookup ["build".toList, "index.html".toList] = some (.file false (.text "<h1>Home</h1>"))
        ∧ disk'.lookup ["build".toList, "start.html".toList] = some (.link "index.html")
        ∧ disk'.lookup ["build".toList, "robots.txt".toList] = some (.file false (.text "Disallow:"))
        ∧ (hoistBy List.reverse "build" 3000).on disk' = (.ok false, disk') := by
  have hreverse : IsListing List.reverse := List.reverse_perm
  obtain ⟨left, -, -, -, hany⟩ :=
    (hoistBy_unwraps "build" 3000).1 _ _ steady_wrapped named_wrapped nested_wrapped
  obtain ⟨disk', hrun, hunwrapped, -, hagain⟩ := hany List.reverse hreverse
  refine ⟨steady_wrapped, named_wrapped, nested_wrapped, hreverse, disk', hrun, ?_, ?_, ?_, hagain _ hreverse⟩
  · exact hunwrapped.up ["index.html".toList] _ (by simp) (by decide +kernel)
  · exact hunwrapped.up ["start.html".toList] _ (by simp) (by decide +kernel)
  · rw [hunwrapped.same _ (by decide +kernel) fun k _ hk => ?_]
    · decide +kernel
    · obtain rfl : ["robots.txt".toList] = k := (List.cons_eq_cons.1 hk).2
      decide +kernel

/-- An export in which the folder holds a link out of it. -/
def looping : Disk :=
  ((Disk.blank.insert ["build".toList] .folder).insert ["build".toList, "localhost:3000".toList] .folder).insert
    ["build".toList, "localhost:3000".toList, "back".toList] (.link "..")

/-- An export in which the folder holds a file with a long name. -/
def longNamed : Disk :=
  ((Disk.blank.insert ["build".toList] .folder).insert ["build".toList, "localhost:3000".toList] .folder).insert
    ["build".toList, "localhost:3000".toList, List.replicate 200 'a'] (.file false (.text "<h1>"))

/-- An export in which a link to another folder has the name of the folder. -/
def renamed : Disk :=
  ((Disk.blank.insert ["build".toList] .folder).insert ["build".toList, "localhost:3000".toList] (.link "other")).insert
    ["build".toList, "other".toList] .folder
  |>.insert ["build".toList, "other".toList, "index.html".toList] (.file false (.text "<h1>"))

/-- The path of an export, spelled at length. -/
def spelledOut : Text := "build" ++ (List.replicate 1965 "/.".toList).flatten

/-- An export that is reached through a link in the folder cannot be reached once the link went
up, so the folder stays; a path that the system does not take is not moved; and a link of the
name passes for the folder, whose place is then emptied. -/
theorem hoist_loses_way :
    ((looping.find true "build/localhost:3000/back").toOption = some (["build".toList], .folder)
      ∧ looping.lookup ["build".toList, hostFolder 3000] = some .folder
      ∧ looping.lookup ["build".toList, "back".toList] = none
      ∧ ((hoist "build/localhost:3000/back" 3000).on looping).1.toOption = none
      ∧ ((hoist "build/localhost:3000/back" 3000).on looping).2.lookup ["build".toList, hostFolder 3000] = some .folder)
    ∧ (longNamed.isFolder (Path.join spelledOut (hostFolder 3000))
      ∧ ((hoist spelledOut 3000).on longNamed).1.toOption = none)
    ∧ renamed.lookup ["build".toList, hostFolder 3000] = some (.link "other")
      ∧ ((hoist "build" 3000).on renamed).1.toOption = some true
      ∧ ((hoist "build" 3000).on renamed).2.lookup ["build".toList, "other".toList, "index.html".toList] = none := by
  decide +kernel

end SiteScaffold.Export

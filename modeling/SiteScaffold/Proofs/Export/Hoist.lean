/-
Dissolving the folder named after the server. A crawler that nests what it fetches puts
everything into one folder (`Nested`). Its entries go up one level one by one, each with
everything below it (`hoistEntries_run`), and the folder, by then empty, goes. What is left
is the tree that stood in the folder, now right below the export, in whatever order the entries
went (`hoistBy_nested`, `hoist_nested`). Links among them go like files.

The folder is looked for by another rule than the crawler names it by. On the port that
addresses leave out the two differ, and nothing is moved (`addresses_agree`).
-/
import SiteScaffold.Proofs.Disk.Shifted
import SiteScaffold.Proofs.Edit
import SiteScaffold.Proofs.Export.Address

namespace SiteScaffold.Export

open Disk (Tree Steady IsPath IsStep Shifted AgreeAround)
open Path (IsPlain under)

variable {disk disk' disk'' : Disk} {site name wrapper : Text} {names : List Text} {j k top : Key}
  {port : Nat}

-- ============================================================ entries go up one level

/-- Whether a place has nothing to do with an entry that goes up one level: it lies neither
at or below the old place nor at or below the new one. -/
def Off (top : Key) (wrapper name : Text) (j : Key) : Prop :=
  ¬ top ++ [name] <+: j ∧ ¬ top ++ [wrapper, name] <+: j

/-- Whether two disks differ in that some entries of a folder went up one level, each with
everything below it. -/
structure Hoisted (top : Key) (wrapper : Text) (names : List Text) (disk disk' : Disk) : Prop where
  up : ∀ name ∈ names, ∀ k, disk'.lookup (top ++ name :: k) = disk.lookup (top ++ wrapper :: name :: k)
  gone : ∀ name ∈ names, ∀ k, disk'.lookup (top ++ wrapper :: name :: k) = none
  same : ∀ j, (∀ name ∈ names, Off top wrapper name j) → disk'.lookup j = disk.lookup j

/-- Whether an entry of a folder may go up one level: its name is free there and is not that
of the folder, and the system takes its path. -/
structure Hoistable (site : Text) (top : Key) (wrapper : Text) (disk : Disk) (name : Text) : Prop where
  step : IsStep name ∧ '/' ∉ name
  there : ∃ e, disk.lookup (top ++ [wrapper, name]) = some e
  free : disk.lookup (top ++ [name]) = none
  other : name ≠ wrapper
  path : IsPath (under site [wrapper, name])

theorem prefix_cons_iff {a b : Text} {t : Key} : top ++ [a] <+: top ++ b :: t ↔ a = b := by
  rw [List.prefix_append_right_inj]
  simp

theorem off_inside {n : Text} (hne : n ≠ name) (hother : n ≠ wrapper) (k : Key) :
    Off top wrapper n (top ++ wrapper :: name :: k) := by
  refine ⟨fun hpre => hother (prefix_cons_iff.1 hpre), fun hpre => hne ?_⟩
  simpa [List.prefix_append_right_inj] using hpre

theorem off_outside {n : Text} (hne : n ≠ name) (hother : name ≠ wrapper) (k : Key) :
    Off top wrapper n (top ++ name :: k) := by
  refine ⟨fun hpre => hne (prefix_cons_iff.1 hpre), fun hpre => hother ?_⟩
  have hcons : top ++ [wrapper] <+: top ++ [wrapper, n] := (List.prefix_append_right_inj top).2 (by simp)
  exact (prefix_cons_iff.1 (hcons.trans hpre)).symm

theorem off_wrapper {n : Text} (hother : n ≠ wrapper) : Off top wrapper n (top ++ [wrapper]) := by
  refine ⟨fun hpre => hother (prefix_cons_iff.1 hpre), fun hpre => ?_⟩
  have hlength := hpre.length_le
  simp at hlength

theorem Hoisted.same_one (h : Hoisted top wrapper [name] disk disk') (hj : Off top wrapper name j) :
    disk'.lookup j = disk.lookup j :=
  h.same j fun n hn => by
    rw [List.mem_singleton.1 hn]
    exact hj

/-- What one entry leaves for another to go up. -/
theorem Hoistable.of_hoisted {n : Text} (h : Hoistable site top wrapper disk n) (hne : name ≠ n)
    (hother : name ≠ wrapper) (hoisted : Hoisted top wrapper [name] disk disk') :
    Hoistable site top wrapper disk' n where
  step := h.step
  there := by
    rw [hoisted.same_one (off_inside hne hother [])]
    exact h.there
  free := by
    rw [hoisted.same_one (off_outside hne h.other [])]
    exact h.free
  other := h.other
  path := h.path

/-- A shorter path below the same folder is taken, too. -/
theorem isPath_up (hwrapper : IsPlain wrapper) (hname : IsPlain name)
    (h : IsPath (under site [wrapper, name])) : IsPath (under site [name]) := by
  have hlong : under site [wrapper, name] = Path.stem site ++ (wrapper ++ '/' :: name) := by
    rw [Path.under_eq (by simp) (by simp [hwrapper, hname]), Text.join_cons_cons]
    simp [Text.join, List.intercalate]
  have hshort : under site [name] = Path.stem site ++ name := by
    rw [Path.under_eq (by simp) (by simp [hname])]
    simp [Text.join, List.intercalate]
  rw [hlong] at h
  rw [hshort]
  have hnul := h.noNul
  have hsize := h.size
  refine ⟨?_, ?_, ?_⟩
  · simp only [List.mem_append, List.mem_cons, not_or] at hnul ⊢
    exact ⟨hnul.1, hnul.2.2.2⟩
  · simp [hname.not_nil]
  · have hcons : '/' :: name = ['/'] ++ name := rfl
    rw [hcons, Text.byteSize_append, Text.byteSize_append, Text.byteSize_append] at hsize
    rw [Text.byteSize_append]
    omega

section

variable (steady : Steady site top disk) (hwrapper : IsStep wrapper ∧ '/' ∉ wrapper)

include steady hwrapper

/-- One entry goes up. -/
theorem move_up (h : Hoistable site top wrapper disk name) :
    ∃ disk', (Edit.move (Path.join (under site [wrapper]) name) (Path.join site name)).on disk = (.ok (), disk')
      ∧ Hoisted top wrapper [name] disk disk' ∧ Steady site top disk' := by
  obtain ⟨e, hentry⟩ := h.there
  have hplain : IsPlain wrapper ∧ IsPlain name :=
    ⟨⟨hwrapper.1.isName, hwrapper.2⟩, ⟨h.step.1.isName, h.step.2⟩⟩
  have hfolder : disk.lookup (top ++ []) = some .folder := by
    rw [List.append_nil]
    exact steady.folder
  have hnone : ∀ n ∈ ([] : Key), IsStep n ∧ '/' ∉ n := by simp
  obtain ⟨disk', hmove, hshifted, hsteady⟩ := steady.shift (k := [wrapper]) (by simpa using hwrapper)
    hnone h.step h.step h.path (isPath_up hplain.1 hplain.2 h.path) hentry hfolder h.free (by simp)
  have hsource : Path.join (under site [wrapper]) name = under site [wrapper, name] :=
    Path.join_under (by simp) (by simp [hplain])
  rw [List.nil_append] at hshifted hmove
  rw [List.singleton_append, ← hsource, Path.under_singleton site name] at hmove
  have hup := hshifted.there
  have hgone := hshifted.gone
  simp only [List.append_assoc, List.cons_append, List.nil_append] at hup hgone
  refine ⟨disk', Edit.on_change hmove, ⟨?_, ?_, ?_⟩, hsteady⟩
  · intro n hn
    rw [List.mem_singleton.1 hn]
    exact hup
  · intro n hn
    rw [List.mem_singleton.1 hn]
    exact hgone
  · intro j hj
    obtain ⟨houtside, hinside⟩ := hj name (by simp)
    exact hshifted.same j hinside houtside

/-- Entries with different names go up one after the other. -/
theorem hoistEntries_run (hnames : names.Nodup)
    (hready : ∀ name ∈ names, Hoistable site top wrapper disk name) :
    ∃ disk', (hoistEntries site (under site [wrapper]) names).on disk = (.ok (), disk')
      ∧ Hoisted top wrapper names disk disk' ∧ Steady site top disk' := by
  induction names generalizing disk with
  | nil => exact ⟨disk, rfl, ⟨by simp, by simp, fun _ _ => rfl⟩, steady⟩
  | cons name names ih =>
      obtain ⟨hnotMem, hnodup⟩ := List.nodup_cons.1 hnames
      have hne : ∀ n ∈ names, name ≠ n := fun n hn heq => hnotMem (heq ▸ hn)
      have hother : name ≠ wrapper := (hready name (by simp)).other
      have hothers : ∀ n ∈ names, n ≠ wrapper := fun n hn => (hready n (by simp [hn])).other
      obtain ⟨disk₁, hmove, hone, hsteady⟩ := move_up steady hwrapper (hready name (by simp))
      obtain ⟨disk', hrun, hrest, hsteady'⟩ := ih hsteady hnodup fun n hn =>
        (hready n (by simp [hn])).of_hoisted (hne n hn) hother hone
      refine ⟨disk', ?_, ⟨?_, ?_, ?_⟩, hsteady'⟩
      · show (Edit.move _ _ >>= fun _ => hoistEntries site (under site [wrapper]) names).on disk = _
        rw [Edit.on_bind_ok hmove, hrun]
      · intro n hn k
        rcases List.mem_cons.1 hn with heq | hn
        · rw [heq, hrest.same _ fun m hm => off_outside (hne m hm).symm hother k]
          exact hone.up name (by simp) k
        · rw [hrest.up n hn, hone.same_one (off_inside (hne n hn) hother k)]
      · intro n hn k
        rcases List.mem_cons.1 hn with heq | hn
        · rw [heq, hrest.same _ fun m hm => off_inside (hne m hm).symm (hothers m hm) k]
          exact hone.gone name (by simp) k
        · exact hrest.gone n hn k
      · intro j hj
        rw [hrest.same j fun n hn => hj n (by simp [hn]), hone.same_one (hj name (by simp))]

end

-- ================================================================ the folder dissolves

/-- What a crawler leaves that puts all it fetches into one folder: the folder is there, the
names of its entries are free beside it, and the system takes the paths of its entries. -/
structure Nested (site : Text) (top : Key) (wrapper : Text) (disk : Disk) : Prop where
  folder : disk.lookup (top ++ [wrapper]) = some .folder
  free : ∀ name e, disk.lookup (top ++ [wrapper, name]) = some e → disk.lookup (top ++ [name]) = none
  path : IsPath (under site [wrapper])
  paths : ∀ name e, disk.lookup (top ++ [wrapper, name]) = some e → IsPath (under site [wrapper, name])

/-- What stands at a place below the export after the folder was dissolved: what stood there
in the folder, or else what stood there beside it. -/
def dissolved (top : Key) (wrapper : Text) (disk : Disk) (k : Key) : Option Entry :=
  (disk.lookup (top ++ wrapper :: k)).or (if k.head? = some wrapper then none else disk.lookup (top ++ k))

/-- Dissolving the folder with its entries in another order than the one they are listed in. -/
def hoistBy (order : List Text → List Text) (site : Text) (port : Nat) : Edit Bool := do
  let wrapper := Path.join site (hostFolder port)
  if !(← Edit.ask (·.isFolder wrapper)) then return false
  let entries ← Edit.list wrapper
  hoistEntries site wrapper (order (entries.map (·.1)))
  Edit.removeTree ("Failed to remove " ++ wrapper) wrapper
  return true

theorem hoistBy_id (site : Text) (port : Nat) : hoistBy id site port = hoist site port := rfl

theorem hoistBy_of_not_folder {order : List Text → List Text}
    (h : disk.isFolder (Path.join site (hostFolder port)) = false) :
    (hoistBy order site port).on disk = (.ok false, disk) := by
  unfold hoistBy
  dsimp only
  rw [Edit.on_bind_ok (Edit.on_ask _), h]
  rfl

/-- The names of the entries in a folder. -/
theorem mem_map_children_iff : name ∈ (disk.children k).map (·.1) ↔ ∃ e, disk.lookup (k ++ [name]) = some e := by
  rw [List.mem_map]
  constructor
  · rintro ⟨⟨_, e⟩, hchild, rfl⟩
    exact ⟨e, Disk.mem_children_iff.1 hchild⟩
  · rintro ⟨e, hlookup⟩
    exact ⟨(name, e), Disk.mem_children_iff.2 hlookup, rfl⟩

/-- What the removal of the folder leaves once its entries went up. -/
theorem lookup_dissolved (hclosed : disk.Closed) (hfolder : disk.lookup (top ++ [wrapper]) = some .folder)
    (hmem : ∀ name, name ∈ names ↔ ∃ e, disk.lookup (top ++ [wrapper, name]) = some e)
    (hfree : ∀ name ∈ names, disk.lookup (top ++ [name]) = none)
    (hoisted : Hoisted top wrapper names disk disk') (hk : k ≠ []) :
    (disk'.erase (top ++ [wrapper])).lookup (top ++ k) = dissolved top wrapper disk k := by
  obtain ⟨name, t, rfl⟩ := List.exists_cons_of_ne_nil hk
  have hother : ∀ n ∈ names, n ≠ wrapper := by
    rintro n hn rfl
    rw [hfree n hn] at hfolder
    cases hfolder
  have hsplit : ∀ front : Key, top ++ (front ++ name :: t) = top ++ (front ++ [name]) ++ t := by simp
  rw [Disk.lookup_erase (by simp), dissolved, List.head?_cons]
  by_cases hname : name ∈ names
  · have hnone : disk.lookup (top ++ name :: t) = none := by
      have hbelow := hclosed.none_append (hfree name hname) t
      rwa [← List.nil_append [name], ← hsplit] at hbelow
    rw [if_neg fun hpre => hother name hname (prefix_cons_iff.1 hpre).symm, hoisted.up name hname, hnone,
      ite_self, Option.or_none]
  · have hinside : disk.lookup (top ++ ([wrapper] ++ [name])) = none :=
      Option.eq_none_iff_forall_ne_some.2 fun e he => hname ((hmem name).2 ⟨e, he⟩)
    have hnone : disk.lookup (top ++ wrapper :: name :: t) = none := by
      have hbelow := hclosed.none_append hinside t
      rwa [← hsplit] at hbelow
    rw [hnone, Option.none_or]
    by_cases heq : name = wrapper
    · rw [heq, if_pos (prefix_cons_iff.2 rfl), if_pos rfl]
    · have hne : ∀ n ∈ names, n ≠ name := fun n hn heq => hname (heq ▸ hn)
      rw [if_neg fun hpre => heq (prefix_cons_iff.1 hpre).symm, if_neg (by simpa using heq),
        hoisted.same _ fun n hn => off_outside (hne n hn) heq t]

/-- Around the export nothing changes. -/
theorem agreeAround_dissolved (hoisted : Hoisted top wrapper names disk disk') :
    AgreeAround top disk (disk'.erase (top ++ [wrapper])) := by
  intro j hj
  have hoff : ∀ k, k ≠ [] → ¬ top ++ k <+: j := by
    intro k hk hpre
    rw [hj ((List.prefix_append top k).trans hpre)] at hpre
    have hlength := hpre.length_le
    rw [List.length_append] at hlength
    exact hk (List.length_eq_zero_iff.1 (by omega))
  rw [Disk.lookup_erase (by simp), if_neg (hoff _ (by simp)),
    hoisted.same j fun n _ => ⟨hoff _ (by simp), hoff _ (by simp)⟩]

/-- The tree in the folder becomes part of the tree of the export, and nothing else changes, in
whatever order the entries of the folder go up. -/
theorem hoistBy_nested {order : List Text → List Text} (steady : Steady site top disk)
    (hnamed : disk.Named top) (h : Nested site top (hostFolder port) disk)
    (horder : ∀ names, (order names).Perm names) :
    ∃ disk', (hoistBy order site port).on disk = (.ok true, disk')
      ∧ (∀ k, k ≠ [] → disk'.lookup (top ++ k) = dissolved top (hostFolder port) disk k)
      ∧ AgreeAround top disk disk' ∧ disk'.Closed := by
  generalize hname : hostFolder port = wrapper at h
  have hwrapper := hnamed [] wrapper _ h.folder
  have hone : ∀ n ∈ [wrapper], IsStep n ∧ '/' ∉ n := by simpa using hwrapper
  have hfolder : disk.isFolder (under site [wrapper]) = true := steady.isFolder (by simp) hone h.path h.folder
  have hentries : (Edit.list (under site [wrapper])).on disk = (.ok (disk.children (top ++ [wrapper])), disk) :=
    Edit.on_look (steady.list_eq (by simp) hone h.path h.folder)
  generalize hnames : order ((disk.children (top ++ [wrapper])).map (·.1)) = names
  have hperm : names.Perm ((disk.children (top ++ [wrapper])).map (·.1)) := hnames ▸ horder _
  have hmem : ∀ name, name ∈ names ↔ ∃ e, disk.lookup (top ++ [wrapper, name]) = some e := by
    intro name
    rw [hperm.mem_iff, mem_map_children_iff, List.append_assoc, List.singleton_append]
  have hfree : ∀ name ∈ names, disk.lookup (top ++ [name]) = none := by
    intro name hn
    obtain ⟨e, hlookup⟩ := (hmem name).1 hn
    exact h.free name e hlookup
  have hother : ∀ name ∈ names, name ≠ wrapper := by
    rintro name hn rfl
    have hnone := hfree name hn
    rw [h.folder] at hnone
    cases hnone
  have hready : ∀ name ∈ names, Hoistable site top wrapper disk name := by
    intro name hn
    obtain ⟨e, hlookup⟩ := (hmem name).1 hn
    exact ⟨hnamed [wrapper] name e hlookup, ⟨e, hlookup⟩, hfree name hn, hother name hn, h.paths name e hlookup⟩
  obtain ⟨disk₁, hrun, hoisted, hsteady⟩ := hoistEntries_run steady hwrapper
    (hperm.nodup_iff.2 (Disk.nodup_children disk _)) hready
  have hfolder₁ : disk₁.lookup (top ++ [wrapper]) = some .folder := by
    rw [hoisted.same _ fun name hn => off_wrapper (hother name hn), h.folder]
  have hremove := hsteady.removeTree_eq (by simp) hone h.path hfolder₁
  refine ⟨disk₁.erase (top ++ [wrapper]), ?_,
    fun k hk => lookup_dissolved steady.closed h.folder hmem hfree hoisted hk, agreeAround_dissolved hoisted,
    hsteady.closed.erase (by simp)⟩
  unfold hoistBy
  dsimp only
  rw [hname, ← Path.under_singleton, Edit.on_bind_ok (Edit.on_ask _), hfolder]
  show (Edit.list (under site [wrapper]) >>= _).on disk = _
  rw [Edit.on_bind_ok hentries, hnames, Edit.on_bind_ok hrun,
    Edit.on_bind_ok (Edit.on_removeTree hremove)]
  rfl

section

variable (tree : Tree site top disk)

include tree

/-- So it is for the order in which the entries are listed. -/
theorem hoist_nested (h : Nested site top (hostFolder port) disk) :
    ∃ disk', (hoist site port).on disk = (.ok true, disk')
      ∧ (∀ k, k ≠ [] → disk'.lookup (top ++ k) = dissolved top (hostFolder port) disk k)
      ∧ AgreeAround top disk disk' := by
  rw [← hoistBy_id]
  obtain ⟨disk', hrun, hinside, haround, -⟩ := hoistBy_nested tree.steady tree.plain.named h fun _ => .refl _
  exact ⟨disk', hrun, hinside, haround⟩

/-- A folder under another name is not looked for. -/
theorem hoist_other (h : disk.lookup (top ++ [hostFolder port]) = none) (hname : IsPlain (hostFolder port)) :
    (hoist site port).on disk = (.ok false, disk) := by
  have hfolder : disk.isFolder (under site [hostFolder port]) = false := by
    rw [Bool.eq_false_iff]
    intro htrue
    rw [((tree.isFolder_iff (by simp) (by simp [hname])).1 htrue).2] at h
    cases h
  rw [Path.under_singleton] at hfolder
  rw [← hoistBy_id]
  exact hoistBy_of_not_folder hfolder

end

theorem isPlain_hostFolder (port : Nat) : IsPlain (hostFolder port) where
  idle := rfl
  up := fun h => absurd (List.cons_eq_cons.1 h).1 (by decide)
  slash := notMem_hostFolder (by decide) (by decide)

-- ===================================================== the three forms of the address

/-- The crawler, the folder and the references agree on the address of the server, unless the
port is the one that addresses leave out. On any other port the output of a crawler that
nests it under the host and port it was given is dissolved, and a reference to an image at
the address it was given is led to the images. On that port neither happens. -/
theorem addresses_agree (port : Nat) :
    (∀ folder, (crawlArgs folder port).getLast? = some (siteUrl port))
      ∧ (authority (siteUrl port) = hostFolder port ↔ port ≠ 80)
      ∧ (∀ site top disk, Tree site top disk → Nested site top (authority (siteUrl port)) disk →
        if port = 80 then
          disk.lookup (top ++ [hostFolder port]) = none → (hoist site port).on disk = (.ok false, disk)
        else ∃ disk', (hoist site port).on disk = (.ok true, disk')
          ∧ (∀ k, k ≠ [] → disk'.lookup (top ++ k) = dissolved top (authority (siteUrl port)) disk k)
          ∧ AgreeAround top disk disk')
      ∧ (∀ name, Html.IsFileName Html.imageExtensions name →
        Html.rewrite port (Html.inQuotes (siteUrl port ++ name))
          = if port = 80 then Html.inQuotes (siteUrl port ++ name)
            else Html.inQuotes ("assets/img/".toList ++ name)) := by
  refine ⟨fun _ => rfl, authority_eq_hostFolder_iff, fun site top disk tree hnested => ?_,
    fun name hname => Html.rewrite_onServer hname port⟩
  by_cases hport : port = 80
  · rw [if_pos hport]
    exact fun hnone => hoist_other tree hnone (isPlain_hostFolder port)
  · rw [if_neg hport]
    rw [authority_eq_hostFolder_iff.2 hport] at hnested ⊢
    exact hoist_nested tree hnested

/-- What a crawler leaves that fetched one page from a host. -/
def crawled (host : Text) : Disk :=
  ((Disk.blank.insert ["build".toList] .folder).insert ["build".toList, host] .folder).insert
    ["build".toList, host, "index.html".toList] (.file false (.text "<h1>Home</h1>"))

theorem addresses_agree_crawled : (3000 ≠ 80)
    ∧ Nested "build" ["build".toList] (authority (siteUrl 3000)) (crawled (authority (siteUrl 3000)))
    ∧ (∃ disk', (hoist "build" 3000).on (crawled (authority (siteUrl 3000))) = (.ok true, disk')
      ∧ disk'.lookup ["build".toList, "index.html".toList] = some (.file false (.text "<h1>Home</h1>")))
    ∧ Html.rewrite 3000 (Html.inQuotes (siteUrl 3000 ++ "logo.png".toList))
      = Html.inQuotes ("assets/img/".toList ++ "logo.png".toList) := by
  have hclosed : (crawled (authority (siteUrl 3000))).Closed :=
    Disk.closed_of_forall_mem (by decide +kernel)
  have hplain : Disk.Plain (crawled (authority (siteUrl 3000))) [] :=
    Disk.plain_of_forall_mem (by decide +kernel) []
  have htree : Tree "build" ["build".toList] (crawled (authority (siteUrl 3000))) :=
    (Disk.tree_of_plain hclosed hplain).sub (k := ["build".toList]) (by simp) (by decide +kernel)
  have hentries : ∀ entry ∈ (crawled (authority (siteUrl 3000))).entries, entry.1.length = 3 →
      entry.1 = ["build".toList, authority (siteUrl 3000), "index.html".toList] := by
    decide +kernel
  have hname : ∀ name e, (crawled (authority (siteUrl 3000))).lookup
      (["build".toList] ++ [authority (siteUrl 3000), name]) = some e → name = "index.html" := by
    intro name e hlookup
    rw [Disk.lookup, if_neg (by simp)] at hlookup
    simpa using hentries _ (Disk.mem_of_lookup hlookup) rfl
  have hnested : Nested "build" ["build".toList] (authority (siteUrl 3000))
      (crawled (authority (siteUrl 3000))) := by
    refine ⟨by decide +kernel, fun name e hlookup => ?_, ⟨by decide +kernel, by decide +kernel,
      by decide +kernel⟩, fun name e hlookup => ?_⟩
    · rw [hname name e hlookup]
      decide +kernel
    · rw [hname name e hlookup]
      exact ⟨by decide +kernel, by decide +kernel, by decide +kernel⟩
  obtain ⟨-, -, hhoist, himages⟩ := addresses_agree 3000
  have himage : Html.IsFileName Html.imageExtensions "logo.png".toList :=
    ⟨"logo", "png", by decide, by decide, by decide, by decide⟩
  obtain ⟨disk', hrun, hup, -⟩ := hhoist _ _ _ htree hnested
  refine ⟨by decide, hnested, ⟨disk', hrun, ?_⟩, himages _ himage⟩
  rw [← List.singleton_append, hup ["index.html".toList] (by simp)]
  decide +kernel

/-- On the port that addresses leave out the pages stay in the folder named after the server,
and a reference to an image on the server stays as it is. -/
theorem hoist_misses_default_port :
    authority (siteUrl 80) ≠ hostFolder 80
      ∧ ((hoist "build" 80).on (crawled (authority (siteUrl 80)))).1.toOption = some false
      ∧ ((hoist "build" 80).on (crawled (authority (siteUrl 80)))).2 = crawled (authority (siteUrl 80))
      ∧ Html.rewrite 80 (Html.inQuotes (siteUrl 80 ++ "logo.png".toList))
        ≠ Html.inQuotes ("assets/img/".toList ++ "logo.png".toList) := by
  decide +kernel

end SiteScaffold.Export

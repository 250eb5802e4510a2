/-
The archive of an export. It stands beside the folder of the export, under the name of the
folder with `.zip` behind it (`beside_archivePath`), and where neither of the two is a link it
does not stand in that folder (`Beside.not_within`).

If it stands outside, packing does not meet it. Each folder and each file below the folder of
the export is stored once, under its path from there, in the order of a walk (`Holds`): paths
from the folder tell entries apart, since an entry's names are read back off its path
(`namesOf_stored?`), so no name is taken when it comes (`pack_met`). All that packing changes is
the archive, so the export can be packed again after it (`Exported.insert`), to the same
archive.
-/
import SiteScaffold.Export.Archive
import SiteScaffold.Proofs.Disk.Overwritten
import SiteScaffold.Proofs.Edit
import SiteScaffold.Proofs.Export.Wipe
import SiteScaffold.Proofs.Path.Relative

namespace SiteScaffold.Export

open Disk (IsPath IsStep Takes)
open Path (IsName IsPlain isIdle lead namesOf under)

variable {disk : Disk} {above folder name root site : Text} {before names : List Text} {e start : Entry}
  {k top : Key} {x : Bool} {c : Content}

-- ==================================================================== beside the export

/-- Whether a path leads beside a folder of a name: to that name with `.zip` behind it. -/
structure Beside (site path above name : Text) : Prop where
  plain : IsPlain name
  folder : Path.parts site = Path.parts above ++ [.name name]
  spelled : path = Path.join above (name ++ ".zip".toList)
  parts : Path.parts path = Path.parts above ++ [.name (name ++ ".zip".toList)]

theorem isPlain_zip (h : IsPlain name) : IsPlain (name ++ ".zip".toList) := by
  have hlong : 4 < (name ++ ".zip".toList).length := by
    rw [List.length_append]
    exact Nat.lt_add_of_pos_left (List.length_pos_iff.2 h.not_nil)
  refine ⟨⟨Bool.eq_false_iff.2 fun hidle => ?_, fun heq => ?_⟩, ?_⟩
  · rw [isIdle, Bool.or_eq_true, decide_eq_true_eq, decide_eq_true_eq] at hidle
    rcases hidle with heq | heq
    · rw [heq] at hlong
      cases hlong
    · rw [heq] at hlong
      simp at hlong
  · rw [heq] at hlong
    simp at hlong
  · rw [List.mem_append]
    rintro (hslash | hslash)
    · exact h.slash hslash
    · revert hslash
      decide

/-- The archive of a folder that an export may go to stands beside it. -/
theorem beside_archivePath (root : Text) (hcheck : checkOutputFolder folder = .ok ()) :
    ∃ above name, Beside (Path.join root folder) (archivePath (Path.join root folder)) above name := by
  obtain ⟨hdescends, -, -⟩ := descends_of_check hcheck
  obtain ⟨front, name, idles, hfolder, hstep, hidles⟩ := Path.exists_last_step hdescends.names
  have hplain : IsPlain name := by
    have hmem : name ∈ Path.segments folder := by simp [hfolder]
    refine ⟨⟨hstep, ?_⟩, Text.notMem_of_mem_split hmem⟩
    rintro rfl
    exact hdescends.up hmem
  have hsegments : Path.segments (Path.join root folder) = (lead root ++ front) ++ name :: idles := by
    rw [hdescends.segments_join, hfolder, List.append_assoc]
  obtain ⟨above, hparts, hbeside⟩ := Path.parts_withFileName hsegments hplain.toIsName hidles
  obtain ⟨hpath, hzip⟩ := hbeside _ (isPlain_zip hplain)
  have harchive : archivePath (Path.join root folder)
      = Path.withFileName (Path.join root folder) (name ++ ".zip".toList) := by
    rw [archivePath, Path.fileName?_last hsegments hplain.toIsName hidles]
    rfl
  rw [harchive]
  exact ⟨above, name, hplain, hparts, hpath, hzip⟩

/-- The archive does not stand in the folder, if neither of the two is a link. -/
theorem Beside.not_within {path : Text} (h : Beside site path above name)
    (hfolder : disk.locate false (Path.join above name) = .ok (.entry top .folder))
    (hpath : disk.locate false path = .ok (disk.place k)) : ¬ top <+: k := by
  rw [h.spelled] at hpath
  have hsegments : ∀ {n : Text}, IsPlain n → Path.segments (Path.join above n) = lead above ++ [n] := by
    intro n hn
    rw [← Path.under_singleton, Path.segments_under (by simp) (by simpa using hn)]
  obtain ⟨-, -, left, there, hreaches, hplace⟩ :=
    (Disk.locate_name (hsegments h.plain) h.plain.toIsName).1 hfolder
  obtain ⟨-, -, left', there', hreaches', hplace'⟩ :=
    (Disk.locate_name (hsegments (isPlain_zip h.plain)) (isPlain_zip h.plain).toIsName).1 hpath
  obtain ⟨-, rfl⟩ := hreaches.unique hreaches'
  have htop : top = there' ++ [name] := by
    rw [← Disk.key_place disk (there' ++ [name]), ← hplace]
    rfl
  have hk : k = there' ++ [name ++ ".zip".toList] := by
    rw [← Disk.key_place disk k, hplace', Disk.key_place]
  rw [htop, hk, List.prefix_append_right_inj]
  simp

-- ====================================================================== what is stored

/-- What an archive has to hold for an entry, by the names that lead to it: a folder, with a
slash behind its path, or a file with its bytes. -/
def stored? : Key × Entry → Option (Text × Bytes)
  | (names, .folder) => some (Text.join ['/'] names ++ ['/'], [])
  | (names, .file _ content) => some (Text.join ['/'] names, content.bytes)
  | (_, .link _) => none

/-- The names that lead to an entry are those of its path in the archive. -/
theorem namesOf_stored? {entry : Key × Entry} {stored : Text × Bytes} (hne : entry.1 ≠ [])
    (hplain : ∀ name ∈ entry.1, IsPlain name) (h : stored? entry = some stored) :
    namesOf (Path.segments stored.1) = entry.1 := by
  have hsplit : Text.split '/' (Text.join ['/'] entry.1) = entry.1 :=
    Text.split_join hne fun name hname => (hplain name hname).slash
  match entry, h with
  | (names, .folder), h =>
      cases h
      rw [Path.segments, Text.split_append, hsplit, Path.namesOf_append, Path.namesOf_names hplain]
      exact List.append_nil names
  | (names, .file x c), h =>
      cases h
      rw [Path.segments, hsplit, Path.namesOf_names hplain]

/-- Whether an archive holds what stands below a place: an entry for each folder and for each
file, in the order of a walk and under different names; and how many files these are. -/
structure Holds (disk : Disk) (top : Key) (stored : List (Text × Bytes)) (files : Nat) : Prop where
  entries : ∃ visited : List (Key × Entry), (visited.Pairwise fun a b => Key.less a.1 b.1)
    ∧ (∀ names e, (names, e) ∈ visited ↔ names ≠ [] ∧ disk.lookup (top ++ names) = some e)
    ∧ stored = visited.filterMap stored? ∧ files = (visited.filter (·.2.isFile)).length
  distinct : (stored.map (·.1)).Nodup

/-- Whether there is an export to pack: its folder is there, the names in it are proper and
have no backslash, and the system takes the paths of the folders and files. -/
structure Exported (site : Text) (disk : Disk) (top : Key) : Prop where
  closed : disk.Closed
  folder : disk.locate true site = .ok (.entry top .folder)
  names : ∀ names e, disk.lookup (top ++ names) = some e →
    ∀ name ∈ names, IsStep name ∧ '/' ∉ name ∧ '\\' ∉ name
  paths : ∀ names e, names ≠ [] → disk.lookup (top ++ names) = some e → (e.isFile || e.isFolder) →
    IsPath (under site names)

namespace Exported

theorem isStep (h : Exported site disk top) (hlookup : disk.lookup (top ++ names) = some e) :
    ∀ name ∈ names, IsStep name ∧ '/' ∉ name := fun name hname =>
  ⟨(h.names names e hlookup name hname).1, (h.names names e hlookup name hname).2.1⟩

theorem isPlain (h : Exported site disk top) (hlookup : disk.lookup (top ++ names) = some e) :
    ∀ name ∈ names, IsPlain name := fun name hname =>
  ⟨(h.isStep hlookup name hname).1.isName, (h.isStep hlookup name hname).2⟩

theorem not_nil (h : Exported site disk top) : site ≠ [] := (Disk.locate_eq_ok_iff.1 h.folder).1.not_nil

/-- No two entries have one name in the archive. -/
theorem distinct (h : Exported site disk top) :
    (((disk.below top).filterMap stored?).map (·.1)).Nodup := by
  rw [List.Nodup, List.pairwise_map, List.pairwise_filterMap]
  refine (Disk.pairwise_below disk top).imp_of_mem ?_
  intro a b ha hb hne stored hstored stored' hstored' heq
  obtain ⟨hnil, hlookup⟩ := Disk.mem_below_iff.1 ha
  obtain ⟨hnil', hlookup'⟩ := Disk.mem_below_iff.1 hb
  have hnames := namesOf_stored? hnil (h.isPlain hlookup) hstored
  rw [heq, namesOf_stored? hnil' (h.isPlain hlookup') hstored'] at hnames
  exact hne hnames.symm

theorem holds (h : Exported site disk top) :
    Holds disk top ((disk.below top).filterMap stored?) ((disk.below top).filter (·.2.isFile)).length where
  entries := ⟨disk.below top, Disk.sorted_below disk top, fun _ _ => Disk.mem_below_iff, rfl, rfl⟩
  distinct := h.distinct

/-- A file outside the folder takes nothing from the export. -/
theorem insert {path : Text} (h : Exported site disk top) (htakes : disk.Takes path k) (hout : ¬ top <+: k)
    (x : Bool) (c : Content) : Exported site (disk.insert k (.file x c)) top
      ∧ (disk.insert k (.file x c)).below top = disk.below top := by
  have hchange := htakes.change h.closed x c
  have hsame : ∀ j, (disk.insert k (.file x c)).lookup (top ++ j) = disk.lookup (top ++ j) := fun j =>
    hchange.same _ fun heq => hout (heq ▸ List.prefix_append top j)
  refine ⟨⟨hchange.closed, ?_, fun names e hlookup => ?_, fun names e hne hlookup => ?_⟩, Disk.below_congr hsame⟩
  · exact Disk.locate_congr hchange.root hchange.agreeOff hchange.leaf h.folder fun heq =>
      hout (heq ▸ List.prefix_refl top)
  · rw [hsame] at hlookup
    exact h.names names e hlookup
  · rw [hsame] at hlookup
    exact h.paths names e hne hlookup

end Exported

-- ==================================================================== entry by entry

theorem entryName_join (h : ∀ name ∈ names, '\\' ∉ name) :
    entryName (Text.join ['/'] names) = Text.join ['/'] names := by
  have hno : '\\' ∉ Text.join ['/'] names := by
    intro hmem
    rcases Text.mem_join hmem with hmem | ⟨name, hname, hmem⟩
    · revert hmem
      decide
    · exact h name hname hmem
  refine (List.map_congr_left fun c hc => if_neg ?_).trans (List.map_id' _)
  rintro rfl
  exact hno hc

/-- The folder that is walked is not packed. -/
theorem inside?_self (site : Text) (e : Entry) : inside? site ⟨site, e⟩ = none := by
  rw [inside?, Path.below?_self]

theorem inside?_under (hsite : site ≠ []) (hne : names ≠ []) (hplain : ∀ name ∈ names, IsPlain name) :
    inside? site ⟨under site names, e⟩ = some (Text.join ['/'] names) := by
  rw [inside?, Path.below?_under hsite hne hplain]
  cases hjoin : Text.join ['/'] names with
  | nil =>
      have hsplit := Text.split_join hne fun name hname => (hplain name hname).slash
      rw [hjoin] at hsplit
      rw [← hsplit] at hplain
      exact absurd rfl (hplain [] (by simp [Text.split_nil])).not_nil
  | cons c relative => rfl

theorem packed?_under (h : Exported site disk top) (hne : names ≠ [])
    (hlookup : disk.lookup (top ++ names) = some e) : packed? disk site ⟨under site names, e⟩ = .ok (stored? (names, e)) := by
  have hname := entryName_join fun name hname => (h.names names e hlookup name hname).2.2
  rw [packed?, inside?_under h.not_nil hne (h.isPlain hlookup)]
  cases e with
  | folder =>
      show Except.ok (some (entryName (Text.join ['/'] names) ++ ['/'], [])) = _
      rw [hname, stored?]
  | link target => rfl
  | file x c =>
      have hread : disk.read (under site names) = .ok c := by
        unfold Disk.read Disk.find
        rw [Disk.locate_file_below h.closed h.folder hlookup hne (h.isStep hlookup)
          (h.paths _ _ hne hlookup rfl)]
        rfl
      dsimp only
      rw [hread, hname, stored?]

theorem blocked?_under (h : Exported site disk top) (hne : names ≠ [])
    (hlookup : disk.lookup (top ++ names) = some e) : blocked? disk site ⟨under site names, e⟩ = none := by
  cases e with
  | file x c | link target => rfl
  | folder =>
      have hlist : disk.list (under site names) = .ok (disk.children (top ++ names)) := by
        unfold Disk.list Disk.find
        rw [Disk.locate_folder_below h.closed h.folder hlookup hne (h.isStep hlookup)
          (h.paths _ _ hne hlookup rfl)]
        rfl
      rw [blocked?, hlist]

/-- What a walk meets of entries below the folder. -/
def met (site : Text) (visited : List (Key × Entry)) : List Disk.Visit :=
  visited.map fun entry => ⟨under site entry.1, entry.2⟩

/-- What is packed of them is what the archive has to hold for them, unless a name is taken. -/
theorem pack_met (h : Exported site disk top) (visited : List (Key × Entry))
    (hvisited : ∀ entry ∈ visited, entry ∈ disk.below top)
    (hdistinct : ((visited.filterMap stored?).map (·.1)).Nodup)
    (hfree : ∀ stored ∈ visited.filterMap stored?, stored.1 ∉ before) :
    pack disk site before (met site visited) = (visited.filterMap stored?, none) := by
  induction visited generalizing before with
  | nil => rfl
  | cons entry visited ih =>
      obtain ⟨names, e⟩ := entry
      obtain ⟨hne, hlookup⟩ := Disk.mem_below_iff.1 (hvisited _ (List.mem_cons_self ..))
      have hrest : ∀ entry ∈ visited, entry ∈ disk.below top := fun entry hentry =>
        hvisited entry (List.mem_cons_of_mem _ hentry)
      show pack disk site before (⟨under site names, e⟩ :: met site visited) = _
      rw [pack, packed?_under h hne hlookup]
      cases hstored : stored? (names, e) with
      | none =>
          rw [List.filterMap_cons_none hstored] at hdistinct hfree ⊢
          exact ih hrest hdistinct hfree
      | some stored =>
          obtain ⟨name, bytes⟩ := stored
          rw [List.filterMap_cons_some hstored] at hdistinct hfree ⊢
          obtain ⟨hnew, hdistinct⟩ := List.nodup_cons.1 hdistinct
          -- the name that is stored now is none of those behind it
          have htail : pack disk site (name :: before) (met site visited) = (visited.filterMap stored?, none) := by
            refine ih hrest hdistinct fun stored hmem hseen => ?_
            rcases List.mem_cons.1 hseen with heq | hseen
            · exact hnew (List.mem_map.2 ⟨stored, hmem, heq⟩)
            · exact hfree stored (List.mem_cons_of_mem _ hmem) hseen
          show (if name ∈ before then _ else _) = _
          rw [if_neg (hfree _ (List.mem_cons_self ..)), blocked?_under h hne hlookup, htail]

-- ====================================================================== the whole run

/-- What is packed of the whole walk. -/
theorem pack_walk (h : Exported site disk top) (start : Entry) :
    pack disk site [] (⟨site, start⟩ :: met site (disk.below top)) = ((disk.below top).filterMap stored?, none) := by
  have hskipped : packed? disk site ⟨site, start⟩ = .ok none := by rw [packed?, inside?_self]
  rw [pack, hskipped]
  exact pack_met h _ (fun _ => id) h.distinct fun _ _ => List.not_mem_nil

/-- How many files a walk meets. -/
theorem count_walk (h : Exported site disk top) (hstart : start.isFile = false) :
    ((⟨site, start⟩ :: met site (disk.below top)).filter fun visit =>
        visit.entry.isFile && (inside? site visit).isSome).length
      = ((disk.below top).filter (·.2.isFile)).length := by
  rw [List.filter_cons_of_neg (by simp [hstart]), met, List.filter_map, List.length_map]
  congr 1
  refine List.filter_congr fun entry hentry => ?_
  obtain ⟨hne, hlookup⟩ := Disk.mem_below_iff.1 hentry
  rw [Function.comp_apply, inside?_under h.not_nil hne (h.isPlain hlookup)]
  exact Bool.and_true _

/-- Packing an export to a place outside it. -/
theorem on_archive (h : Exported site disk top) (htakes : disk.Takes (archivePath site) k)
    (hout : ¬ top <+: k) :
    (archive site).on disk
      = (.ok (archivePath site, ((disk.below top).filter (·.2.isFile)).length),
        disk.insert k (.file (disk.modeAt k) (.archive ((disk.below top).filterMap stored?)))) := by
  have hcreate : (Edit.change ("Failed to create " ++ archivePath site) (·.write (archivePath site) (.text []))).on disk
      = (.ok (), disk.insert k (.file (disk.modeAt k) (.text []))) := Edit.on_change (htakes.write _)
  have hfinish : ∀ stored, (finishArchive (archivePath site) stored).on
      (disk.insert k (.file (disk.modeAt k) (.text [])))
        = (.ok (), disk.insert k (.file (disk.modeAt k) (.archive stored))) := fun stored =>
    Edit.on_change (htakes.write_insert _ _ _)
  obtain ⟨hmid, hbelow⟩ := h.insert htakes hout (disk.modeAt k) (.text [])
  obtain ⟨start, hstart, hwalk⟩ := Disk.walk_folder hmid.folder
  -- the disk on which the export is walked, with an empty file for the archive
  generalize disk.insert k (.file (disk.modeAt k) (.text [])) = mid at *
  have hpack := pack_walk hmid start
  have hcount := count_walk hmid hstart
  have hwalked : ∀ handler : Failure → Edit (List Disk.Visit),
      (tryCatch (Edit.walk site) handler).on mid = (.ok (⟨site, start⟩ :: met site (mid.below top)), mid) :=
    fun handler => by rw [Edit.on_tryCatch, Edit.on_walk_eq_ok.2 ⟨hwalk, rfl⟩, met]
  unfold archive
  rw [Edit.on_bind_ok hcreate, Edit.on_bind_ok (hwalked _), Edit.on_bind_ok Edit.on_get, hpack]
  show (finishArchive _ _ >>= _).on _ = _
  rw [Edit.on_bind_ok (hfinish _)]
  show (Except.ok (archivePath site, _), _) = _
  rw [hcount, hbelow]

/-- Packing an export makes an archive beside its folder that holds all folders and files below
it and changes nothing else, if the archive does not stand inside; it does not where neither it
nor the folder is a link. Packing again makes the same archive. -/
theorem archive_holds_export (root : Text) (hcheck : checkOutputFolder folder = .ok ())
    (hexport : Exported (Path.join root folder) disk top)
    (htakes : disk.Takes (archivePath (Path.join root folder)) k) :
    (∃ above name, Beside (Path.join root folder) (archivePath (Path.join root folder)) above name
      ∧ (disk.locate false (Path.join above name) = .ok (.entry top .folder) →
        disk.locate false (archivePath (Path.join root folder)) = .ok (disk.place k) → ¬ top <+: k))
    ∧ (¬ top <+: k → ∃ disk' x stored files,
      (archive (Path.join root folder)).on disk = (.ok (archivePath (Path.join root folder), files), disk')
        ∧ Disk.AgreeBut k disk disk' ∧ disk'.lookup k = some (.file x (.archive stored))
        ∧ Holds disk top stored files
        ∧ (archive (Path.join root folder)).on disk'
          = (.ok (archivePath (Path.join root folder), files), disk')) := by
  obtain ⟨above, name, hbeside⟩ := beside_archivePath root hcheck
  refine ⟨⟨above, name, hbeside, hbeside.not_within⟩, fun hout => ?_⟩
  have hk := htakes.ne_nil
  refine ⟨_, disk.modeAt k, _, _, on_archive hexport htakes hout, Disk.agreeBut_insert hk, ?_,
    hexport.holds, ?_⟩
  · rw [Disk.lookup_insert hk, if_pos rfl]
  · obtain ⟨hexport', hbelow⟩ := hexport.insert htakes hout (disk.modeAt k)
      (.archive ((disk.below top).filterMap stored?))
    have hagain := on_archive hexport' (htakes.insert _ _) hout
    rw [hbelow, Disk.modeAt_insert hk, Disk.insert_insert] at hagain
    exact hagain

/-- An export of which one knows what stands below its folder. -/
theorem exported_of_below (hclosed : disk.Closed) (hfolder : disk.locate true site = .ok (.entry top .folder))
    (hbelow : ∀ entry ∈ disk.below top, (∀ name ∈ entry.1, IsStep name ∧ '/' ∉ name ∧ '\\' ∉ name)
      ∧ ((entry.2.isFile || entry.2.isFolder) → IsPath (under site entry.1))) :
    Exported site disk top where
  closed := hclosed
  folder := hfolder
  names := by
    intro names e hlookup name hname
    have hne : names ≠ [] := List.ne_nil_of_mem hname
    exact (hbelow _ (Disk.mem_below_iff.2 ⟨hne, hlookup⟩)).1 name hname
  paths := fun names e hne hlookup => (hbelow _ (Disk.mem_below_iff.2 ⟨hne, hlookup⟩)).2

/-- A project with an export that has a link in it, beside an archive of it. -/
def shop : Disk where
  entries :=
    [ (["build".toList], .folder),
      (["build".toList, "assets".toList], .folder),
      (["build".toList, "assets".toList, "app.js".toList], .file false (.text "run()")),
      (["build".toList, "home.html".toList], .link "index.html"),
      (["build".toList, "index.html".toList], .file false (.text "<h1>")),
      (["build.zip".toList], .file true (.archive [])) ]
  sorted := by decide

theorem archive_holds_export_shop :
    checkOutputFolder "build" = .ok () ∧ Exported (Path.join "/" "build") shop ["build".toList]
      ∧ shop.Takes (archivePath (Path.join "/" "build")) ["build.zip".toList]
      ∧ ∃ disk' x stored files,
        (archive (Path.join "/" "build")).on shop = (.ok (archivePath (Path.join "/" "build"), files), disk')
          ∧ Disk.AgreeBut ["build.zip".toList] shop disk'
          ∧ disk'.lookup ["build.zip".toList] = some (.file x (.archive stored))
          ∧ Holds shop ["build".toList] stored files
          ∧ (archive (Path.join "/" "build")).on disk'
            = (.ok (archivePath (Path.join "/" "build"), files), disk') := by
  have hexport : Exported (Path.join "/" "build") shop ["build".toList] :=
    exported_of_below (Disk.closed_of_forall_mem (by decide +kernel)) rfl (by decide +kernel)
  have htakes : shop.Takes (archivePath (Path.join "/" "build")) ["build.zip".toList] :=
    ⟨rfl, Disk.isLeaf_of_file (show shop.lookup _ = some (.file true (.archive [])) from rfl)⟩
  exact ⟨rfl, hexport, htakes, (archive_holds_export "/" rfl hexport htakes).2 (by decide)⟩

example : ((archive (Path.join "/" "build")).on shop).2.lookup ["build.zip".toList] = some (.file true
    (.archive [("assets/".toList, []), ("assets/app.js".toList, Utf8.encode "run()"),
      ("index.html".toList, Utf8.encode "<h1>")])) := by
  decide +kernel

-- ================================================================== where it goes wrong

/-- A project whose folder for exports is a link to the project. -/
def looped : Disk where
  entries := [(["build".toList], .link ".")]
  sorted := by decide

/-- A project with a folder where the archive should be. -/
def occupied : Disk where
  entries :=
    [ (["build".toList], .folder), (["build".toList, "index.html".toList], .file false (.text "<h1>")),
      (["build.zip".toList], .folder) ]
  sorted := by decide

/-- A project with a file of a long name in its export. -/
def remote : Disk where
  entries := [(["build".toList], .folder), (["build".toList, List.replicate 200 'a'], .file false (.text "<h1>"))]
  sorted := by decide +kernel

/-- The folder for exports, spelled at length. -/
def dotted : Text := "build" ++ (List.replicate 1975 "/.".toList).flatten

/-- An archive is packed into itself if its place is in the export. There is none if it cannot
be written or a file cannot be read. -/
theorem archive_misses_export :
    (checkOutputFolder "build" = .ok ()
      ∧ looped.locate true (Path.join "/" "build") = .ok (.entry [] .folder)
      ∧ ((archive (Path.join "/" "build")).on looped).1.toOption = some ("/build.zip".toList, 1)
      ∧ ((archive (Path.join "/" "build")).on looped).2.lookup ["build.zip".toList]
        = some (.file false (.archive [("build.zip".toList, [])])))
    ∧ (occupied.isFolder (Path.join "/" "build")
      ∧ ((archive (Path.join "/" "build")).on occupied).1
        = .error ⟨["Failed to create /build.zip"], .system .isFolder⟩)
    ∧ (checkOutputFolder dotted).toOption = some () ∧ remote.isFolder (Path.join "/" "build")
      ∧ ((archive (Path.join "/" dotted)).on remote).1.toOption = none := by
  refine ⟨⟨rfl, rfl, ?_, ?_⟩, ⟨?_, rfl⟩, ?_, ?_, ?_⟩ <;> decide +kernel

end SiteScaffold.Export

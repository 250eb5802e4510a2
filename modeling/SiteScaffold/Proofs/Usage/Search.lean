/-
What a search for usages reports. A target has a file to report if the file stands below its
folder, ends as it should and holds one of its patterns (`Target.Reports`); what one target
reports comes in the order of a walk (`on_findIn`, `sorted_reported`).

Folders of targets may lie in one another, so a file may be reported more than once, by paths
that are written differently. Of the paths that are the same the first one is kept (`Firsts`).
All reports come sorted by target and then in the order of a walk, so what is reported before a
report are those of the earlier targets and, of its own, others: the first of its kind is the
one that no earlier target has (`find_reports`).
-/
import Mathlib.Data.List.FinRange
import Mathlib.Data.List.Induction
import SiteScaffold.Proofs.Disk.Tree
import SiteScaffold.Proofs.Edit
import SiteScaffold.Usage

namespace SiteScaffold.Usage

variable {α : Type} {root : Text} {disk : Disk} {target : Target} {targets : List Target}
  {names : Key}

-- ========================================================================== one target

/-- The path of what stands below the folder of a target. -/
def Target.path (root : Text) (target : Target) (names : Key) : Text :=
  Path.under (Path.join root target.folder) names

/-- Whether a target has a file to report: one below its folder, with links not followed,
whose path has the suffix and whose text holds one of the patterns. -/
def Target.Reports (root : Text) (disk : Disk) (target : Target) (names : Key) : Prop :=
  ∃ top x content, disk.locate true (Path.join root target.folder) = .ok (.entry top .folder)
    ∧ disk.lookup (top ++ names) = some (.file x (.text content))
    ∧ Text.endsWith (target.path root names) target.suffix
    ∧ ∃ pattern ∈ target.patterns, pattern.occursIn content

/-- Whether what stands below the folder of a target can be walked: it has proper names, and
the system takes its paths. -/
def Target.Walkable (root : Text) (disk : Disk) (target : Target) : Prop :=
  ∀ top names e, disk.locate true (Path.join root target.folder) = .ok (.entry top .folder) →
    names ≠ [] → disk.lookup (top ++ names) = some e →
      (∀ name ∈ names, Disk.IsStep name ∧ '/' ∉ name) ∧ Disk.IsPath (target.path root names)

/-- The files that a target reports, in the order of a walk. -/
def Target.reported (root : Text) (disk : Disk) (target : Target) : List Key :=
  match disk.locate true (Path.join root target.folder) with
  | .ok (.entry top .folder) =>
    ((disk.below top).filter fun entry => refers target disk ⟨target.path root entry.1, entry.2⟩).map (·.1)
  | _ => []

theorem reported_of_locate {top : Key}
    (h : disk.locate true (Path.join root target.folder) = .ok (.entry top .folder)) :
    target.reported root disk
      = ((disk.below top).filter fun entry =>
          refers target disk ⟨target.path root entry.1, entry.2⟩).map (·.1) := by
  rw [Target.reported, h]

theorem locate_of_mem_reported (h : names ∈ target.reported root disk) :
    ∃ top, disk.locate true (Path.join root target.folder) = .ok (.entry top .folder) := by
  unfold Target.reported at h
  split at h
  next top hlocate => exact ⟨top, hlocate⟩
  next => cases h

theorem on_findIn (root : Text) (disk : Disk) (target : Target) :
    (findIn root target).on disk
      = (.ok ((target.reported root disk).map (target.path root)), disk) := by
  unfold findIn
  rw [Edit.on_bind_ok (Edit.on_ask _)]
  cases hfolder : disk.isFolder (Path.join root target.folder) with
  | false =>
      have hnone : target.reported root disk = [] := by
        refine List.eq_nil_iff_forall_not_mem.2 fun names hmem => ?_
        obtain ⟨top, hlocate⟩ := locate_of_mem_reported hmem
        rw [Disk.isFolder_eq_true_iff.2 ⟨top, hlocate⟩] at hfolder
        cases hfolder
      rw [hnone]
      rfl
  | true =>
      obtain ⟨top, hlocate⟩ := Disk.isFolder_eq_true_iff.1 hfolder
      obtain ⟨start, hstart, hwalk⟩ := Disk.walk_folder hlocate
      show ((Edit.walk _ >>= _ : Edit _)).on disk = _
      rw [Edit.on_bind_ok (Edit.on_walk hwalk), Edit.on_bind_ok Edit.on_get]
      have hskipped : refers target disk ⟨Path.join root target.folder, start⟩ = false := by
        simp [refers, hstart]
      rw [List.filter_cons_of_neg (by simp [hskipped]), List.filter_map, List.map_map,
        reported_of_locate hlocate, List.map_map]
      rfl

theorem sorted_reported (root : Text) (disk : Disk) (target : Target) :
    (target.reported root disk).Pairwise fun a b => Key.less a b := by
  unfold Target.reported
  split
  next top hlocate => exact List.pairwise_map.2 ((Disk.sorted_below disk top).filter _)
  next => exact .nil

theorem ne_nil_of_file {top : Key} {x : Bool} {c : Content} {base : Text} (hclosed : disk.Closed)
    (hlocate : disk.locate true base = .ok (.entry top .folder))
    (hlookup : disk.lookup (top ++ names) = some (.file x c)) : names ≠ [] := by
  rintro rfl
  obtain ⟨left, hreaches⟩ := Disk.reaches_lead hlocate
  rw [List.append_nil, hreaches.lookup hclosed (Disk.lookup_nil disk)] at hlookup
  cases hlookup

theorem Target.Reports.isPlain (h : target.Reports root disk names) (hclosed : disk.Closed)
    (hwalk : target.Walkable root disk) : names ≠ [] ∧ ∀ name ∈ names, Path.IsPlain name := by
  obtain ⟨top, x, content, hlocate, hlookup, -, -⟩ := h
  have hnil := ne_nil_of_file hclosed hlocate hlookup
  obtain ⟨hnames, -⟩ := hwalk top names _ hlocate hnil hlookup
  exact ⟨hnil, fun name hname => ⟨(hnames name hname).1.isName, (hnames name hname).2⟩⟩

/-- Different files that one target has to report have different paths. -/
theorem Target.Reports.parts_ne {names' : Key} (h : target.Reports root disk names)
    (h' : target.Reports root disk names') (hclosed : disk.Closed) (hwalk : target.Walkable root disk)
    (hne : names ≠ names') :
    Path.parts (target.path root names) ≠ Path.parts (target.path root names') := by
  obtain ⟨hnil, hplain⟩ := h.isPlain hclosed hwalk
  obtain ⟨hnil', hplain'⟩ := h'.isPlain hclosed hwalk
  unfold Target.path
  rw [Path.parts_under hnil hplain, Path.parts_under hnil' hplain', Ne, List.append_cancel_left_eq]
  exact fun heq => hne ((List.map_inj_right fun _ _ => Path.Part.name.inj).1 heq)

/-- What a target reports are the files that it has to report. -/
theorem mem_reported_iff (hclosed : disk.Closed) (hwalk : target.Walkable root disk) :
    names ∈ target.reported root disk ↔ target.Reports root disk names := by
  constructor
  · intro hmem
    obtain ⟨top, hlocate⟩ := locate_of_mem_reported hmem
    rw [reported_of_locate hlocate] at hmem
    obtain ⟨⟨j, e⟩, hentry, rfl⟩ := List.mem_map.1 hmem
    obtain ⟨hbelow, hrefers⟩ := List.mem_filter.1 hentry
    obtain ⟨hj, hlookup⟩ := Disk.mem_below_iff.1 hbelow
    obtain ⟨hnames, hpath⟩ := hwalk top j e hlocate hj hlookup
    rw [refers, Bool.and_eq_true, Bool.and_eq_true] at hrefers
    obtain ⟨⟨hfile, hsuffix⟩, hread⟩ := hrefers
    match e, hfile with
    | .file x c, _ =>
        have hfound : disk.locate true (target.path root j) = .ok (.entry (top ++ j) (.file x c)) :=
          Disk.locate_file_below hclosed hlocate hlookup hj hnames hpath
        unfold Disk.readText Disk.read Disk.find at hread
        rw [hfound] at hread
        match c, hread with
        | .text content, hread => exact ⟨top, x, content, hlocate, hlookup, hsuffix, List.any_eq_true.1 hread⟩
  · rintro ⟨top, x, content, hlocate, hlookup, hsuffix, hpattern⟩
    have hnil := ne_nil_of_file hclosed hlocate hlookup
    obtain ⟨hnames, hpath⟩ := hwalk top names _ hlocate hnil hlookup
    have hread : disk.readText (target.path root names) = .ok content := Disk.readText_eq_ok_iff.2
      ⟨_, x, Disk.locate_file_below hclosed hlocate hlookup hnil hnames hpath⟩
    rw [reported_of_locate hlocate]
    refine List.mem_map.2 ⟨(names, .file x (.text content)), List.mem_filter.2
      ⟨Disk.mem_below_iff.2 ⟨hnil, hlookup⟩, ?_⟩, rfl⟩
    rw [refers, hsuffix, hread]
    exact List.any_eq_true.2 hpattern

-- ================================================================== the first of each

/-- Whether some are left of a sequence of things with paths: those with no other before them
that has the same path. -/
structure Firsts (path : α → Text) (xs kept : List α) : Prop where
  sublist : kept.Sublist xs
  mem : ∀ x, x ∈ kept ↔ ∃ front back, xs = front ++ x :: back
    ∧ ∀ y ∈ front, Path.parts (path y) ≠ Path.parts (path x)
  all : ∀ x ∈ xs, ∃ y ∈ kept, Path.parts (path y) = Path.parts (path x)
  once : kept.Pairwise fun x y => Path.parts (path x) ≠ Path.parts (path y)

theorem firsts_concat (paths : List Text) (path : Text) :
    firsts (paths ++ [path]) = if (firsts paths).any (Path.parts · = Path.parts path) then firsts paths
      else firsts paths ++ [path] := by
  rw [firsts, List.foldl_append]
  rfl

/-- The ways to cut a sequence in front of an entry, when another one comes behind it. -/
theorem exists_cut_concat {Holds : List α → Prop} {xs : List α} {x z : α} :
    (∃ front back, xs ++ [x] = front ++ z :: back ∧ Holds front)
      ↔ (∃ front back, xs = front ++ z :: back ∧ Holds front) ∨ z = x ∧ Holds xs := by
  constructor
  · rintro ⟨front, back, heq, hfront⟩
    rcases List.eq_nil_or_concat' back with rfl | ⟨back, last, rfl⟩
    · obtain ⟨rfl, hlast⟩ := List.append_inj' heq rfl
      cases hlast
      exact .inr ⟨rfl, hfront⟩
    · rw [← List.cons_append, ← List.append_assoc] at heq
      exact .inl ⟨front, back, (List.append_inj' heq rfl).1, hfront⟩
  · rintro (⟨front, back, rfl, hfront⟩ | ⟨rfl, hxs⟩)
    · exact ⟨front, back ++ [x], by simp, hfront⟩
    · exact ⟨xs, [], rfl, hxs⟩

theorem Firsts.keep {path : α → Text} {xs kept : List α} {x : α} (h : Firsts path xs kept)
    (hnew : ∀ y ∈ kept, Path.parts (path y) ≠ Path.parts (path x)) :
    Firsts path (xs ++ [x]) (kept ++ [x]) where
  sublist := h.sublist.append (.refl _)
  mem := by
    intro z
    have hfree : ∀ y ∈ xs, Path.parts (path y) ≠ Path.parts (path x) := by
      intro y hy heq
      obtain ⟨z, hz, hsame⟩ := h.all y hy
      exact hnew z hz (hsame.trans heq)
    rw [exists_cut_concat, ← h.mem z, List.mem_append, List.mem_singleton]
    refine or_congr_right ⟨?_, And.left⟩
    rintro rfl
    exact ⟨rfl, hfree⟩
  all := by
    intro z hz
    rcases List.mem_append.1 hz with hz | hz
    · obtain ⟨y, hy, hsame⟩ := h.all z hz
      exact ⟨y, List.mem_append_left _ hy, hsame⟩
    · exact ⟨z, List.mem_append_right _ hz, rfl⟩
  once := by
    refine List.pairwise_append.2 ⟨h.once, List.pairwise_singleton _ _, fun y hy z hz => ?_⟩
    rw [List.mem_singleton.1 hz]
    exact hnew y hy

theorem Firsts.skip {path : α → Text} {xs kept : List α} {x : α} (h : Firsts path xs kept)
    (hseen : ∃ y ∈ kept, Path.parts (path y) = Path.parts (path x)) : Firsts path (xs ++ [x]) kept where
  sublist := h.sublist.trans (List.sublist_append_left xs [x])
  mem := by
    intro z
    obtain ⟨y, hy, hsame⟩ := hseen
    have hnot : ¬ (z = x ∧ ∀ y ∈ xs, Path.parts (path y) ≠ Path.parts (path z)) := by
      rintro ⟨rfl, hfree⟩
      exact hfree y (h.sublist.subset hy) hsame
    rw [exists_cut_concat, ← h.mem z, or_iff_left hnot]
  all := by
    intro z hz
    rcases List.mem_append.1 hz with hz | hz
    · exact h.all z hz
    · rw [List.mem_singleton.1 hz]
      exact hseen
  once := h.once

theorem exists_firsts (path : α → Text) (xs : List α) :
    ∃ kept, firsts (xs.map path) = kept.map path ∧ Firsts path xs kept := by
  induction xs using List.reverseRecOn with
  | nil => exact ⟨[], rfl, .refl _, by simp, by simp, .nil⟩
  | append_singleton xs x ih =>
      obtain ⟨kept, heq, hfirsts⟩ := ih
      rw [List.map_append, List.map_singleton, firsts_concat, heq]
      split
      next hany =>
        obtain ⟨p, hp, hsame⟩ := List.any_eq_true.1 hany
        obtain ⟨y, hy, rfl⟩ := List.mem_map.1 hp
        exact ⟨kept, rfl, hfirsts.skip ⟨y, hy, of_decide_eq_true hsame⟩⟩
      next hnone =>
        refine ⟨kept ++ [x], by simp, hfirsts.keep fun y hy hsame => hnone ?_⟩
        exact List.any_eq_true.2 ⟨path y, List.mem_map_of_mem hy, decide_eq_true hsame⟩

/-- Paths that are all different are all kept. -/
theorem firsts_of_pairwise {paths : List Text}
    (h : paths.Pairwise fun p q => Path.parts p ≠ Path.parts q) : firsts paths = paths := by
  induction paths using List.reverseRecOn with
  | nil => rfl
  | append_singleton paths path ih =>
      obtain ⟨hpaths, -, hnew⟩ := List.pairwise_append.1 h
      rw [firsts_concat, ih hpaths, if_neg]
      rw [List.any_eq_true]
      rintro ⟨q, hq, hsame⟩
      exact hnew q hq path (List.mem_singleton_self _) (of_decide_eq_true hsame)

-- ====================================================================== all targets

/-- A report of a search: the target by its number, and the names that lead to the file from
the folder of the target. -/
abbrev Report (targets : List Target) := Fin targets.length × Key

def Report.path (root : Text) (report : Report targets) : Text := targets[report.1].path root report.2

/-- The order in which reports are made: by target, and for one target in the order of a
walk. -/
def Report.Before (a b : Report targets) : Prop := a.1 < b.1 ∨ a.1 = b.1 ∧ Key.less a.2 b.2

/-- Whether reports are those that a search has to make: what a target has to report unless an
earlier one has the same path to report. -/
structure Reported (root : Text) (disk : Disk) (reports : List (Report targets)) : Prop where
  mem : ∀ i names, (i, names) ∈ reports ↔ targets[i].Reports root disk names
    ∧ ∀ j < i, ∀ names', targets[j].Reports root disk names' →
      Path.parts (Report.path root (j, names')) ≠ Path.parts (Report.path root (i, names))
  all : ∀ i names, targets[i].Reports root disk names →
    ∃ report ∈ reports, Path.parts (report.path root) = Path.parts (Report.path root (i, names))
  once : reports.Pairwise fun a b => Path.parts (a.path root) ≠ Path.parts (b.path root)
  sorted : reports.Pairwise Report.Before
  folder : ∀ report ∈ reports, disk.isFolder (Path.join root targets[report.1].folder)

/-- Everything that the targets report, one after the other. -/
def allReports (root : Text) (disk : Disk) (targets : List Target) : List (Report targets) :=
  (List.finRange targets.length).flatMap fun i => (targets[i].reported root disk).map (i, ·)

theorem on_mapM_findIn (root : Text) (disk : Disk) (targets : List Target) :
    (targets.mapM (findIn root)).on disk
      = (.ok (targets.map fun target => (target.reported root disk).map (target.path root)), disk) := by
  induction targets with
  | nil => rfl
  | cons target targets ih =>
      rw [List.mapM_cons, Edit.on_bind_ok (on_findIn root disk target), Edit.on_bind_ok ih]
      rfl

/-- A search with one target finds what the target reports. -/
theorem on_find_one (hclosed : disk.Closed) (hwalk : target.Walkable root disk) :
    (find root [target]).on disk = (.ok ((target.reported root disk).map (target.path root)), disk) := by
  have hparts : ((target.reported root disk).map (target.path root)).Pairwise
      fun p q => Path.parts p ≠ Path.parts q := by
    refine List.pairwise_map.2 ((sorted_reported root disk target).imp_of_mem fun {k k'} hk hk' hless => ?_)
    exact ((mem_reported_iff hclosed hwalk).1 hk).parts_ne ((mem_reported_iff hclosed hwalk).1 hk') hclosed
      hwalk (Key.ne_of_less hless)
  unfold find
  rw [Edit.on_bind_ok (on_mapM_findIn root disk [target]), List.map_singleton, List.flatten_singleton,
    firsts_of_pairwise hparts]
  rfl

theorem on_find (root : Text) (disk : Disk) (targets : List Target) :
    (find root targets).on disk
      = (.ok (firsts ((allReports root disk targets).map (Report.path root))), disk) := by
  have hall : (targets.map fun target => (target.reported root disk).map (target.path root)).flatten
      = (allReports root disk targets).map (Report.path root) := by
    conv_lhs => rw [← List.map_getElem_finRange targets]
    rw [allReports, List.map_flatMap, List.flatMap_def, List.map_map]
    simp only [List.map_map]
    rfl
  unfold find
  rw [Edit.on_bind_ok (on_mapM_findIn root disk targets), hall]
  rfl

theorem mem_allReports {i : Fin targets.length} :
    (i, names) ∈ allReports root disk targets ↔ names ∈ targets[i].reported root disk := by
  unfold allReports
  simp only [List.mem_flatMap, List.mem_finRange, List.mem_map, Prod.mk.injEq, true_and]
  constructor
  · rintro ⟨j, k, hmem, rfl, rfl⟩
    exact hmem
  · exact fun hmem => ⟨i, names, hmem, rfl, rfl⟩

theorem sorted_allReports (root : Text) (disk : Disk) (targets : List Target) :
    (allReports root disk targets).Pairwise Report.Before := by
  unfold allReports
  rw [List.pairwise_flatMap]
  constructor
  · intro i _
    exact List.pairwise_map.2 ((sorted_reported root disk targets[i]).imp fun hless => .inr ⟨rfl, hless⟩)
  · refine (List.pairwise_lt_finRange _).imp fun {i j} hlt a ha b hb => ?_
    obtain ⟨k, -, rfl⟩ := List.mem_map.1 ha
    obtain ⟨k', -, rfl⟩ := List.mem_map.1 hb
    exact .inl hlt

/-- A search makes the reports that it has to make, each file once by paths that are the same,
and leaves the disk alone. A report is of a file below the folder of its target, with links not
followed, whose path has the suffix and whose text holds one of the patterns; all files are
reported, unless an earlier target has the same path to report, in the order of the targets and
for each of them in that of a walk. -/
theorem find_makes_reports (hclosed : disk.Closed)
    (hwalk : ∀ target ∈ targets, target.Walkable root disk) :
    ∃ reports : List (Report targets),
      (find root targets).on disk = (.ok (reports.map (Report.path root)), disk)
        ∧ Reported root disk reports := by
  have hwalks : ∀ i : Fin targets.length, targets[i].Walkable root disk := fun i =>
    hwalk _ (List.getElem_mem i.isLt)
  have hiff : ∀ {i : Fin targets.length} {names : Key},
      (i, names) ∈ allReports root disk targets ↔ targets[i].Reports root disk names :=
    fun {i names} => mem_allReports.trans (mem_reported_iff hclosed (hwalks i))
  have hsorted := sorted_allReports root disk targets
  obtain ⟨reports, heq, hfirsts⟩ := exists_firsts (Report.path root) (allReports root disk targets)
  refine ⟨reports, by rw [on_find, heq], ?_, ?_, hfirsts.once, hsorted.sublist hfirsts.sublist, ?_⟩
  · intro i names
    rw [hfirsts.mem]
    constructor
    · rintro ⟨front, back, hcut, hfront⟩
      refine ⟨hiff.1 (by rw [hcut]; simp), fun j hj names' hreports => ?_⟩
      -- an earlier target's report stands before this one
      have hmem : (j, names') ∈ front ++ (i, names) :: back := by
        rw [← hcut]
        exact hiff.2 hreports
      rw [hcut] at hsorted
      rcases List.mem_append.1 hmem with hmem | hmem
      · exact hfront _ hmem
      · rcases List.mem_cons.1 hmem with hsame | hmem
        · cases hsame
          exact absurd hj (lt_irrefl _)
        · have hbefore := List.rel_of_pairwise_cons (List.pairwise_append.1 hsorted).2.1 hmem
          rcases hbefore with hlt | ⟨rfl, -⟩
          · exact absurd hj (lt_asymm hlt)
          · exact absurd hj (lt_irrefl _)
    · rintro ⟨hreports, hfree⟩
      obtain ⟨front, back, hcut⟩ := List.append_of_mem (hiff.2 hreports)
      refine ⟨front, back, hcut, fun ⟨j, names'⟩ hmem => ?_⟩
      have hreports' := hiff.1 (hcut ▸ List.mem_append_left _ hmem)
      rw [hcut] at hsorted
      have hbefore := (List.pairwise_append.1 hsorted).2.2 _ hmem _ (List.mem_cons_self ..)
      rcases hbefore with hlt | ⟨hsame, hless⟩
      · exact hfree j hlt names' hreports'
      · cases hsame
        exact hreports'.parts_ne hreports hclosed (hwalks _) (Key.ne_of_less hless)
  · exact fun i names hreports => hfirsts.all _ (hiff.2 hreports)
  · intro report hmem
    obtain ⟨top, -, -, hlocate, -⟩ := hiff.1 (hfirsts.sublist.subset hmem)
    exact Disk.isFolder_eq_true_iff.2 ⟨top, hlocate⟩

/-- A target of which one knows what stands below its folder. -/
theorem walkable_of_below (top : Key)
    (hlocate : disk.locate true (Path.join root target.folder) = .ok (.entry top .folder))
    (hbelow : ∀ entry ∈ disk.below top, (∀ name ∈ entry.1, Disk.IsStep name ∧ '/' ∉ name)
      ∧ Disk.IsPath (target.path root entry.1)) : target.Walkable root disk := by
  intro top' names e hlocate' hnil hlookup
  rw [hlocate] at hlocate'
  cases hlocate'
  exact hbelow _ (Disk.mem_below_iff.2 ⟨hnil, hlookup⟩)

/-- A project with views that are reported twice, once, and not at all. -/
def searched : Disk where
  entries :=
    [ (["app".toList], .folder),
      (["app".toList, "a.erb".toList], .file false (.text "chart")),
      (["app".toList, "b.erb".toList], .link "a.erb"),
      (["app".toList, "views".toList], .folder),
      (["app".toList, "views".toList, "c.erb".toList], .file false (.text "chart")),
      (["app".toList, "views".toList, "d.erb".toList], .file false (.binary [0xff])) ]
  sorted := by decide

/-- Targets of which one lies in the other. -/
def nested : List Target :=
  [⟨"app/views", ".erb", [Pattern.literal "chart"]⟩, ⟨"app", ".erb", [Pattern.literal "chart"]⟩]

theorem find_makes_reports_nested :
    ∃ reports : List (Report nested),
      (find "/" nested).on searched = (.ok (reports.map (Report.path "/")), searched)
        ∧ Reported "/" searched reports := by
  have hclosed : searched.Closed := Disk.closed_of_forall_mem (by decide +kernel)
  refine find_makes_reports hclosed fun target htarget => ?_
  rcases List.mem_cons.1 htarget with rfl | htarget
  · exact walkable_of_below ["app".toList, "views".toList] rfl (by decide +kernel)
  · obtain rfl := List.mem_singleton.1 htarget
    exact walkable_of_below ["app".toList] rfl (by decide +kernel)

example : ((find "/" nested).on searched).1.toOption
    = some ["/app/views/c.erb".toList, "/app/a.erb".toList] := by
  decide +kernel

end SiteScaffold.Usage

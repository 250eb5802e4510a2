/-
What rewriting the texts in a tree leaves. A pass over the files whose names end in a
suffix, if it goes through, has read each of them as a text and put the rewritten one in its
place (`rewriteFiles_eq_ok`); everything else stands as it stood, and no file changes its
mode (`Reworded.outline`). A pass that has nothing left to rewrite answers that and leaves
the disk alone (`rewriteFiles_again`).
-/
import SiteScaffold.Export.Exporter
import SiteScaffold.Proofs.Disk.Overwritten
import SiteScaffold.Proofs.Disk.Rearranged
import SiteScaffold.Proofs.Edit

namespace SiteScaffold

open Disk (AgreeAround Tree IsPath)
open Path (IsPlain under)

variable {disk disk' disk'' : Disk} {j k top : Key} {base name path suffix t : Text} {c : Content} {x : Bool}
  {e : Entry} {rewrite : Text → Text}

-- ================================================================ entries but for texts

namespace Entry

/-- The entry without the content of a file. -/
def outline : Entry → Entry
  | file x _ => file x (.text [])
  | e => e

/-- The entry with a text rewritten. -/
def reworded (rewrite : Text → Text) : Entry → Entry
  | file x (.text t) => file x (.text (rewrite t))
  | e => e

@[simp] theorem outline_reworded (rewrite : Text → Text) (e : Entry) :
    (e.reworded rewrite).outline = e.outline := by
  cases e with
  | file x c => cases c <;> rfl
  | folder | link target => rfl

end Entry

namespace Disk

/-- Whether two disks have the same entries but for what their files hold. -/
def SameOutline (disk disk' : Disk) : Prop :=
  ∀ j, (disk'.lookup j).map Entry.outline = (disk.lookup j).map Entry.outline

namespace SameOutline

theorem symm (h : SameOutline disk disk') : SameOutline disk' disk := fun j => (h j).symm

theorem trans (h : SameOutline disk disk') (h' : SameOutline disk' disk'') : SameOutline disk disk'' :=
  fun j => (h' j).trans (h j)

theorem entry (h : SameOutline disk disk') (hj : disk.lookup j = some e) :
    ∃ e', disk'.lookup j = some e' ∧ e'.outline = e.outline := by
  have houtline := h j
  rw [hj, Option.map_some, Option.map_eq_some_iff] at houtline
  exact houtline

theorem folder (h : SameOutline disk disk') (hj : disk.lookup j = some .folder) :
    disk'.lookup j = some .folder := by
  obtain ⟨e, he, houtline⟩ := h.entry hj
  cases e with
  | folder => exact he
  | file x c | link target => cases houtline

theorem file (h : SameOutline disk disk') (hj : disk.lookup j = some (.file x c)) :
    ∃ c', disk'.lookup j = some (.file x c') := by
  obtain ⟨e, he, houtline⟩ := h.entry hj
  cases e with
  | folder | link target => cases houtline
  | file x' c' =>
      cases houtline
      exact ⟨c', he⟩

end SameOutline

/-- A tree stays one when only the contents of its files change. -/
theorem Tree.sameOutline (tree : Tree base top disk) (haround : AgreeAround top disk disk')
    (h : SameOutline disk disk') : Tree base top disk' := by
  refine tree.congr haround (fun j name e hj => ?_) fun k name e hk => ?_
  · obtain ⟨e', he', -⟩ := h.symm.entry hj
    exact h.folder (tree.closed _ _ _ he')
  · obtain ⟨e', he', houtline⟩ := h.symm.entry hk
    obtain ⟨hstep, hslash, hkind⟩ := tree.plain _ _ _ he'
    refine ⟨hstep, hslash, ?_⟩
    cases e with
    | folder | file x c => rfl
    | link target =>
        cases e' with
        | folder | file x c => cases houtline
        | link target => cases hkind

end Disk

namespace Export

open Disk (SameOutline)

-- ================================================================== one pass of texts

/-- Whether two disks differ in that the texts of the files in a tree were rewritten whose
names end in a suffix. -/
structure Reworded (top : Key) (suffix : Text) (rewrite : Text → Text) (disk disk' : Disk) : Prop where
  inside : ∀ k name, Text.endsWith name suffix →
    disk'.lookup (top ++ (k ++ [name])) = (disk.lookup (top ++ (k ++ [name]))).map (Entry.reworded rewrite)
  outside : ∀ j, (∀ k name, Text.endsWith name suffix → j ≠ top ++ (k ++ [name])) →
    disk'.lookup j = disk.lookup j

/-- Whether every file in a tree whose name ends in a suffix can be read as a text. -/
def Readable (base : Text) (top : Key) (suffix : Text) (disk : Disk) : Prop :=
  ∀ k name x c, disk.lookup (top ++ (k ++ [name])) = some (.file x c) → Text.endsWith name suffix →
    IsPath (under base (k ++ [name])) ∧ ∃ t, c = .text t

namespace Reworded

theorem sameOutline (h : Reworded top suffix rewrite disk disk') : SameOutline disk disk' := by
  intro j
  by_cases hj : ∃ k name, Text.endsWith name suffix ∧ j = top ++ (k ++ [name])
  · obtain ⟨k, name, hname, rfl⟩ := hj
    rw [h.inside k name hname, Option.map_map]
    congr 1
    funext e
    exact Entry.outline_reworded rewrite e
  · rw [h.outside j fun k name hname heq => hj ⟨k, name, hname, heq⟩]

/-- A file whose name ends otherwise stays as it is. -/
theorem other (h : Reworded top suffix rewrite disk disk') (hname : ¬ Text.endsWith name suffix)
    (j k : Key) : disk'.lookup (j ++ (k ++ [name])) = disk.lookup (j ++ (k ++ [name])) := by
  refine h.outside _ fun k' name' hends heq => ?_
  rw [← List.append_assoc, ← List.append_assoc] at heq
  obtain ⟨-, hsame⟩ := List.append_inj' heq rfl
  cases hsame
  exact hname hends

theorem agreeAround (h : Reworded (top ++ k) suffix rewrite disk disk') : AgreeAround top disk disk' := by
  refine Disk.agreeAround_of fun j hne => ?_
  refine Classical.byContradiction fun hnot => hne (h.outside j fun k' name _ heq => hnot ?_)
  exact ⟨k ++ (k' ++ [name]), by simp, by rw [heq, List.append_assoc]⟩

end Reworded

/-- What is no file to look into is skipped. -/
theorem rewriteFile_skips {visit : Disk.Visit} (h : ¬ (visit.entry.isFile ∧ Text.endsWith visit.path suffix)) :
    (rewriteFile suffix rewrite visit).on disk = (.ok false, disk) := by
  have hskips : (!visit.entry.isFile || !Text.endsWith visit.path suffix) = true := by
    rw [← Bool.not_and, Bool.not_eq_true', Bool.eq_false_iff]
    exact fun hboth => h (Bool.and_eq_true_iff.1 hboth)
  unfold rewriteFile
  rw [if_pos hskips]
  rfl

/-- A file to look into is read, and written if its text changes. -/
theorem rewriteFile_stages {path : Text} {changed : Bool} (hends : Text.endsWith path suffix)
    (h : (rewriteFile suffix rewrite ⟨path, .file x c⟩).on disk = (.ok changed, disk')) :
    ∃ t, disk.readText path = .ok t
      ∧ (rewrite t = t ∧ disk' = disk ∨ disk.write path (.text (rewrite t)) = .ok disk') := by
  unfold rewriteFile at h
  rw [if_neg (by simp [Entry.isFile, hends])] at h
  obtain ⟨t, disk₁, hread, hafter⟩ := Edit.on_bind_eq_ok.1 h
  obtain ⟨htext, rfl⟩ := Edit.on_look_eq_ok.1 hread
  refine ⟨t, htext, ?_⟩
  by_cases hfixed : rewrite t = t
  · rw [if_pos hfixed] at hafter
    cases hafter
    exact .inl ⟨hfixed, rfl⟩
  · rw [if_neg hfixed] at hafter
    obtain ⟨⟨⟩, disk₂, hwrite, hanswer⟩ := Edit.on_bind_eq_ok.1 hafter
    cases hanswer
    exact .inr (Edit.on_change_eq_ok.1 hwrite)

/-- What rewriting one file comes to. -/
theorem rewriteFile_eq_ok (tree : Tree base top disk) {changed : Bool} (hsuffix : '/' ∉ suffix)
    (hlookup : disk.lookup (top ++ (k ++ [name])) = some e)
    (h : (rewriteFile suffix rewrite ⟨under base (k ++ [name]), e⟩).on disk = (.ok changed, disk')) :
    (∀ x c, e = .file x c → Text.endsWith name suffix →
        IsPath (under base (k ++ [name])) ∧ ∃ t, c = .text t)
      ∧ ∀ j, disk'.lookup j = if j = top ++ (k ++ [name]) ∧ Text.endsWith name suffix
        then some (e.reworded rewrite) else disk.lookup j := by
  have hnames := tree.isPlain hlookup
  have hends : Text.endsWith (under base (k ++ [name])) suffix = Text.endsWith name suffix :=
    Path.endsWith_under hnames hsuffix
  have hsame : (Text.endsWith name suffix → e.reworded rewrite = e) → ∀ j, disk.lookup j
      = if j = top ++ (k ++ [name]) ∧ Text.endsWith name suffix then some (e.reworded rewrite)
        else disk.lookup j := by
    intro hstays j
    split
    next hj => rw [hj.1, hlookup, hstays hj.2]
    next => rfl
  by_cases hlooked : e.isFile ∧ Text.endsWith name suffix
  · obtain ⟨hfile, hname⟩ := hlooked
    match e, hfile with
    | .file x c, _ =>
        obtain ⟨t, hread, hafter⟩ := rewriteFile_stages (hends.trans hname) h
        obtain ⟨j, hholds⟩ := Disk.readText_eq_ok_iff.1 hread
        obtain ⟨hpath, rfl, x', hlookup'⟩ := (tree.holdsText_iff (by simp) hnames).1 hholds
        rw [hlookup'] at hlookup
        cases hlookup
        refine ⟨fun x c heq _ => ⟨hpath, t, by cases heq; rfl⟩, ?_⟩
        rcases hafter with ⟨hfixed, rfl⟩ | hwrite
        · exact hsame fun _ => by rw [Entry.reworded, hfixed]
        · obtain ⟨-, -, hchange, -, hnew⟩ := tree.write hnames hwrite
          intro j
          by_cases hj : j = top ++ (k ++ [name])
          · rw [if_pos ⟨hj, hname⟩, hj, hnew, Disk.modeAt, hlookup']
            rfl
          · rw [if_neg fun h => hj h.1]
            exact hchange.same j hj
  · rw [rewriteFile_skips (by rwa [hends])] at h
    cases h
    refine ⟨fun x c heq hname => absurd ⟨by rw [heq]; rfl, hname⟩ hlooked, hsame fun hname => ?_⟩
    cases e with
    | folder | link target => rfl
    | file x c => exact absurd ⟨rfl, hname⟩ hlooked

/-- A disk in the course of a pass, with the entries that are left to look at. -/
structure Rewording (base : Text) (top : Key) (suffix : Text) (rewrite : Text → Text) (disk : Disk)
    (left : List (Key × Entry)) (disk' : Disk) : Prop where
  tree : Tree base top disk'
  once : left.Pairwise fun a b => a.1 ≠ b.1
  /-- What is left has not changed. -/
  pending : ∀ entry ∈ left, entry.1 ≠ [] ∧ disk.lookup (top ++ entry.1) = some entry.2
    ∧ disk'.lookup (top ++ entry.1) = some entry.2
  /-- All others were read and rewritten. -/
  done : ∀ k name, (∀ entry ∈ left, entry.1 ≠ k ++ [name]) → Text.endsWith name suffix →
    disk'.lookup (top ++ (k ++ [name])) = (disk.lookup (top ++ (k ++ [name]))).map (Entry.reworded rewrite)
      ∧ ∀ x c, disk.lookup (top ++ (k ++ [name])) = some (.file x c) →
        IsPath (under base (k ++ [name])) ∧ ∃ t, c = .text t
  outside : ∀ j, (∀ k name, Text.endsWith name suffix → j ≠ top ++ (k ++ [name])) →
    disk'.lookup j = disk.lookup j

theorem Rewording.step {left : List (Key × Entry)} {changed : Bool} (hsuffix : '/' ∉ suffix)
    (h : Rewording base top suffix rewrite disk ((k, e) :: left) disk')
    (hfile : (rewriteFile suffix rewrite ⟨under base k, e⟩).on disk' = (.ok changed, disk'')) :
    Rewording base top suffix rewrite disk left disk'' := by
  obtain ⟨hk, hlookup, hlookup'⟩ := h.pending (k, e) (List.mem_cons_self ..)
  obtain ⟨hhead, honce⟩ := List.pairwise_cons.1 h.once
  obtain ⟨front, name, rfl⟩ := List.eq_nil_or_concat' k |>.resolve_left hk
  obtain ⟨hreadable, hwritten⟩ := rewriteFile_eq_ok h.tree hsuffix hlookup' hfile
  have hoff : ∀ j, j ≠ front ++ [name] → disk''.lookup (top ++ j) = disk'.lookup (top ++ j) := by
    intro j hj
    rw [hwritten, if_neg fun h => hj (List.append_cancel_left h.1)]
  have houtline : SameOutline disk' disk'' := by
    intro j
    rw [hwritten]
    split
    next hj =>
      rw [hj.1, hlookup']
      exact congrArg some (Entry.outline_reworded rewrite e)
    next => rfl
  have haround : AgreeAround top disk' disk'' := by
    refine Disk.agreeAround_of fun j hne => ⟨front ++ [name], hk, ?_⟩
    refine Classical.byContradiction fun hj => hne ?_
    rw [hwritten, if_neg fun h => hj h.1]
  refine ⟨h.tree.sameOutline haround houtline, honce, fun entry hmem => ?_, fun j n hleft hends => ?_,
    fun j hj => ?_⟩
  · obtain ⟨hne, hbefore, hnow⟩ := h.pending entry (List.mem_cons_of_mem _ hmem)
    refine ⟨hne, hbefore, ?_⟩
    rw [hoff _ (hhead entry hmem).symm]
    exact hnow
  · by_cases heq : j ++ [n] = front ++ [name]
    · obtain ⟨rfl, hn⟩ := List.append_inj' heq rfl
      cases hn
      refine ⟨?_, fun x c hfile => ?_⟩
      · rw [hwritten, if_pos ⟨rfl, hends⟩, hlookup]
        rfl
      · rw [hlookup] at hfile
        cases hfile
        exact hreadable x c rfl hends
    · rw [hoff _ heq]
      refine h.done j n (fun entry hmem => ?_) hends
      rcases List.mem_cons.1 hmem with rfl | hmem
      · exact Ne.symm heq
      · exact hleft entry hmem
  · rw [hwritten, if_neg fun h => hj front name h.2 h.1]
    exact h.outside j hj

/-- What a pass comes to. -/
theorem rewriteFiles_eq_ok (tree : Tree base top disk) (hbase : IsPath base) (hsuffix : '/' ∉ suffix)
    {count : Nat} (h : (rewriteFiles base suffix rewrite).on disk = (.ok count, disk')) :
    Tree base top disk' ∧ Reworded top suffix rewrite disk disk' ∧ Readable base top suffix disk := by
  unfold rewriteFiles at h
  rw [Edit.on_bind_ok (Edit.on_ask _), tree.isFolder_base hbase, if_neg (by simp)] at h
  obtain ⟨visits, disk₁, hwalk, hafter⟩ := Edit.on_bind_eq_ok.1 h
  obtain ⟨hvisits, hdisk⟩ := Edit.on_walk_eq_ok.1 hwalk
  subst hdisk
  obtain ⟨start, hstart, hmet⟩ := tree.walk hbase
  rw [hmet] at hvisits
  cases hvisits
  obtain ⟨changed, disk₂, hfiles, hanswer⟩ := Edit.on_bind_eq_ok.1 hafter
  obtain rfl : disk₂ = disk' := by
    cases hanswer
    rfl
  obtain ⟨first, disk₃, rest, hfirst, hrest, -⟩ := Edit.on_mapM_cons hfiles
  obtain rfl : disk₁ = disk₃ := by
    rw [rewriteFile_skips (by simp [hstart])] at hfirst
    exact congrArg Prod.snd hfirst
  have hbegin : Rewording base top suffix rewrite disk₁ (disk₁.below top) disk₁ := {
    tree := tree
    once := Disk.pairwise_below disk₁ top
    pending := fun entry hmem => ⟨(Disk.mem_below_iff.1 hmem).1, (Disk.mem_below_iff.1 hmem).2,
      (Disk.mem_below_iff.1 hmem).2⟩
    done := by
      intro k name hnot _
      cases hlookup : disk₁.lookup (top ++ (k ++ [name])) with
      | none => exact ⟨rfl, fun x c hfile => by cases hfile⟩
      | some e => exact absurd rfl (hnot (k ++ [name], e) (Disk.mem_below_iff.2 ⟨by simp, hlookup⟩))
    outside := fun _ _ => rfl }
  obtain ⟨left, hleft, hend⟩ := Edit.on_mapM_run
    (fun visits disk' => ∃ left : List (Key × Entry),
      left.map (fun entry => (⟨under base entry.1, entry.2⟩ : Disk.Visit)) = visits
        ∧ Rewording base top suffix rewrite disk₁ left disk')
    (by
      rintro visit visits disk changed disk' ⟨left, hleft, hrewording⟩ hfile
      cases left with
      | nil => cases hleft
      | cons entry left =>
          obtain ⟨k, e⟩ := entry
          cases hleft
          exact ⟨left, rfl, hrewording.step hsuffix hfile⟩)
    ⟨disk₁.below top, rfl, hbegin⟩ hrest
  obtain rfl := List.map_eq_nil_iff.1 hleft
  refine ⟨hend.tree, ⟨fun k name hends => (hend.done k name (by simp) hends).1, hend.outside⟩, ?_⟩
  exact fun k name x c hfile hends => (hend.done k name (by simp) hends).2 x c hfile

/-- A file whose text stays is not written. -/
theorem rewriteFile_again (tree : Tree base top disk) (hsuffix : '/' ∉ suffix)
    (hreadable : Readable base top suffix disk)
    (hfixed : ∀ k name x t, disk.lookup (top ++ (k ++ [name])) = some (.file x (.text t)) →
      Text.endsWith name suffix → rewrite t = t)
    (hlookup : disk.lookup (top ++ (k ++ [name])) = some e) :
    (rewriteFile suffix rewrite ⟨under base (k ++ [name]), e⟩).on disk = (.ok false, disk) := by
  have hnames := tree.isPlain hlookup
  have hends : Text.endsWith (under base (k ++ [name])) suffix = Text.endsWith name suffix :=
    Path.endsWith_under hnames hsuffix
  by_cases hlooked : e.isFile ∧ Text.endsWith name suffix
  · obtain ⟨hfile, hname⟩ := hlooked
    match e, hfile with
    | .file x c, _ =>
        obtain ⟨hpath, t, rfl⟩ := hreadable k name x c hlookup hname
        have hholds := (tree.holdsText_iff (by simp) hnames).2 ⟨hpath, rfl, x, hlookup⟩
        unfold rewriteFile
        rw [if_neg (by simp [Entry.isFile, hends, hname]), Edit.on_bind_ok (Edit.on_readText hholds),
          if_pos (hfixed k name x t hlookup hname)]
        rfl
  · exact rewriteFile_skips (by rwa [hends])

/-- A pass that finds every text as it would write it. -/
theorem rewriteFiles_again (tree : Tree base top disk) (hbase : IsPath base) (hsuffix : '/' ∉ suffix)
    (hreadable : Readable base top suffix disk)
    (hfixed : ∀ k name x t, disk.lookup (top ++ (k ++ [name])) = some (.file x (.text t)) →
      Text.endsWith name suffix → rewrite t = t) :
    (rewriteFiles base suffix rewrite).on disk = (.ok 0, disk) := by
  obtain ⟨start, hstart, hwalk⟩ := tree.walk hbase
  have hsame : ∀ visit ∈ (⟨base, start⟩ : Disk.Visit) :: (disk.below top).map
      fun entry => ⟨under base entry.1, entry.2⟩,
      ∃ changed, (rewriteFile suffix rewrite visit).on disk = (.ok changed, disk) ∧ changed = false := by
    intro visit hmem
    rcases List.mem_cons.1 hmem with rfl | hmem
    · exact ⟨false, rewriteFile_skips (by simp [hstart]), rfl⟩
    · obtain ⟨⟨k, e⟩, hbelow, rfl⟩ := List.mem_map.1 hmem
      obtain ⟨hk, hlookup⟩ := Disk.mem_below_iff.1 hbelow
      obtain ⟨front, name, rfl⟩ := List.eq_nil_or_concat' k |>.resolve_left hk
      exact ⟨false, rewriteFile_again tree hsuffix hreadable hfixed hlookup, rfl⟩
  obtain ⟨answers, hanswers, hnone⟩ := Edit.on_mapM_same (· = false) hsame
  unfold rewriteFiles
  rw [Edit.on_bind_ok (Edit.on_ask _), tree.isFolder_base hbase, if_neg (by simp),
    Edit.on_bind_ok (Edit.on_walk hwalk), Edit.on_bind_ok hanswers]
  have hcount : answers.count true = 0 := List.count_eq_zero.2 fun hmem => by
    have hfalse := hnone true hmem
    cases hfalse
  rw [hcount]
  rfl

end Export

end SiteScaffold

/-
Trees of folders and files. A tree hangs at the place that the path of its folder reaches,
and has no links in it (`Tree`). So a path that goes on below the folder by names leads to
what stands under these names in the tree (`Tree.locate`), and a walk meets each entry of
the tree once (`Tree.walk`, `pairwise_below`). Where there are links, too, a walk still meets
each entry below a folder once, and the folders and files by paths that lead to them
(`walk_folder`, `locate_folder_below`, `locate_file_below`).

The way to the folder passes only what lies outside the tree, so it stays open whatever
happens inside (`Tree.congr`). Nothing below says anything about the way itself, which may
go over links and up.
-/
import SiteScaffold.Proofs.Disk.Stands
import SiteScaffold.Proofs.Path.Under

namespace SiteScaffold

theorem Text.less_irrefl (t : Text) : Text.less t t = false := by
  induction t with
  | nil => rfl
  | cons c t ih => simp [Text.less, ih]

namespace Key

theorem less_irrefl (k : Key) : less k k = false := by
  induction k with
  | nil => rfl
  | cons name k ih => simp [less, ih, Text.less_irrefl]

theorem ne_of_less {a b : Key} (h : less a b) : a ≠ b := by
  rintro rfl
  rw [less_irrefl] at h
  cases h

theorem not_less_of_less {a b : Key} (h : less a b) : ¬ less b a :=
  fun h' => ne_of_less (less_trans h h') rfl

/-- Below one place the order is that of what goes on from there. -/
theorem less_append (k a b : Key) : less (k ++ a) (k ++ b) = less a b := by
  induction k with
  | nil => rfl
  | cons name k ih => simp [less, ih, Text.less_irrefl]

/-- In the order of a walk nothing comes twice. -/
theorem nodup_of_sorted {α : Type} {place : α → Key} {xs : List α}
    (h : xs.Pairwise fun a b => less (place a) (place b)) : xs.Nodup :=
  h.imp fun hless heq => ne_of_less hless (congrArg place heq)

/-- There is one way to put things in that order. -/
theorem eq_of_sorted {α : Type} {place : α → Key} {xs ys : List α}
    (hxs : xs.Pairwise fun a b => less (place a) (place b))
    (hys : ys.Pairwise fun a b => less (place a) (place b)) (hmem : ∀ x, x ∈ xs ↔ x ∈ ys) : xs = ys := by
  have hperm : xs.Perm ys :=
    (List.perm_ext_iff_of_nodup (nodup_of_sorted hxs) (nodup_of_sorted hys)).2 hmem
  exact hperm.eq_of_pairwise (fun a b _ _ hab hba => absurd hba (not_less_of_less hab)) hxs hys

end Key

namespace Disk

open Path (IsName IsPlain under lead)

variable {disk disk' disk'' : Disk} {here j k k' top : Key} {e : Entry} {follow : Bool}
  {links left : Nat} {base name path : Text} {r : Located}

/-- Steps without slashes are names by which a path can go on. -/
theorem isPlain_of_steps (hnames : ∀ n ∈ k, IsStep n ∧ '/' ∉ n) : ∀ n ∈ k, IsPlain n :=
  fun n hn => ⟨(hnames n hn).1.isName, (hnames n hn).2⟩

-- ============================================================= entries in sequence

theorem lookup_of_mem {l : List (Key × Entry)} (hsorted : l.Pairwise fun a b => Key.less a.1 b.1)
    (h : (k, e) ∈ l) : l.lookup k = some e := by
  induction l with
  | nil => cases h
  | cons head l ih =>
      obtain ⟨k', e'⟩ := head
      obtain ⟨hhead, htail⟩ := List.pairwise_cons.1 hsorted
      rw [lookup_cons]
      rcases List.mem_cons.1 h with heq | h
      · cases heq
        exact if_pos rfl
      · have hless := hhead _ h
        rw [if_neg (Key.ne_of_less hless).symm]
        exact ih htail h

/-- What is below a place. -/
theorem mem_below_iff : (j, e) ∈ disk.below k ↔ j ≠ [] ∧ disk.lookup (k ++ j) = some e := by
  unfold below
  rw [List.mem_filterMap]
  constructor
  · rintro ⟨⟨i, e'⟩, hmem, hsome⟩
    dsimp only at hsome
    split at hsome
    next hbelow =>
      cases hsome
      rw [Bool.and_eq_true, decide_eq_true_eq] at hbelow
      obtain ⟨hwithin, hne⟩ := hbelow
      obtain ⟨j, rfl⟩ := List.isPrefixOf_iff_prefix.1 hwithin
      have hj : j ≠ [] := by
        rintro rfl
        simp at hne
      rw [List.drop_left]
      refine ⟨hj, ?_⟩
      rw [lookup, if_neg (by simp [hj])]
      exact lookup_of_mem disk.sorted hmem
    next => cases hsome
  · rintro ⟨hj, hlookup⟩
    rw [lookup, if_neg (by simp [hj])] at hlookup
    refine ⟨(k ++ j, e), mem_of_lookup hlookup, ?_⟩
    have hwithin : Key.within k (k ++ j) = true := List.isPrefixOf_iff_prefix.2 (List.prefix_append k j)
    show (if k.within (k ++ j) && k ++ j ≠ k then _ else _) = _
    rw [if_pos (by simp [hwithin, hj]), List.drop_left]

/-- It comes in the order of a walk. -/
theorem sorted_below (disk : Disk) (k : Key) :
    (disk.below k).Pairwise fun a b => Key.less a.1 b.1 := by
  refine List.Pairwise.filterMap _ ?_ disk.sorted
  rintro ⟨i, e⟩ ⟨i', e'⟩ hless b hb b' hb'
  have hdrop : ∀ {i : Key} {e : Entry} {b : Key × Entry},
      (if k.within i && i ≠ k then some (i.drop k.length, e) else none) = some b → i = k ++ b.1 := by
    intro i e b hb
    split at hb
    next hbelow =>
      cases hb
      rw [Bool.and_eq_true, decide_eq_true_eq] at hbelow
      obtain ⟨j, rfl⟩ := List.isPrefixOf_iff_prefix.1 hbelow.1
      rw [List.drop_left]
    next => cases hb
  dsimp only at hless
  rwa [hdrop hb, hdrop hb', Key.less_append] at hless

/-- It is met once. -/
theorem pairwise_below (disk : Disk) (k : Key) :
    (disk.below k).Pairwise fun a b => a.1 ≠ b.1 :=
  (sorted_below disk k).imp Key.ne_of_less

/-- It is what stands at the places there. -/
theorem below_congr (h : ∀ j, disk'.lookup (k ++ j) = disk.lookup (k ++ j)) : disk'.below k = disk.below k :=
  Key.eq_of_sorted (sorted_below disk' k) (sorted_below disk k) fun ⟨j, e⟩ => by
    rw [mem_below_iff, mem_below_iff, h]

theorem mem_children_iff : (name, e) ∈ disk.children k ↔ disk.lookup (k ++ [name]) = some e := by
  unfold children
  rw [List.mem_filterMap]
  constructor
  · rintro ⟨⟨j, e'⟩, hmem, hsome⟩
    split at hsome
    next name' e'' heq =>
      cases hsome
      cases heq
      exact (mem_below_iff.1 hmem).2
    next => cases hsome
  · exact fun h => ⟨([name], e), mem_below_iff.2 ⟨by simp, h⟩, rfl⟩

/-- No two entries of a folder have one name. -/
theorem nodup_children (disk : Disk) (k : Key) : ((disk.children k).map (·.1)).Nodup := by
  rw [List.Nodup, List.pairwise_map]
  refine List.Pairwise.filterMap _ ?_ (pairwise_below disk k)
  rintro ⟨i, e⟩ ⟨i', e'⟩ hne b hb b' hb' heq
  split at hb
  next name e hi =>
    split at hb'
    next name' e' hi' =>
      cases hi
      cases hi'
      cases hb
      cases hb'
      exact hne (by rw [show name = name' from heq])
    next => cases hb'
  next => cases hb

/-- The files below a place, each by its folder and its name, in the order of a walk. -/
def filesBelow (disk : Disk) (top : Key) : List (Key × Text) :=
  (disk.below top).filterMap fun entry =>
    if entry.2.isFile then entry.1.getLast?.map (entry.1.dropLast, ·) else none

theorem mem_filesBelow_iff :
    (k, name) ∈ disk.filesBelow top ↔ ∃ x c, disk.lookup (top ++ (k ++ [name])) = some (.file x c) := by
  unfold filesBelow
  rw [List.mem_filterMap]
  constructor
  · rintro ⟨⟨j, e⟩, hmem, hsome⟩
    obtain ⟨hj, hlookup⟩ := mem_below_iff.1 hmem
    obtain ⟨j, n, rfl⟩ := List.eq_nil_or_concat' j |>.resolve_left hj
    cases e with
    | folder | link target => cases hsome
    | file x c =>
        obtain ⟨rfl, rfl⟩ : j = k ∧ n = name := by simpa [Entry.isFile] using hsome
        exact ⟨x, c, hlookup⟩
  · rintro ⟨x, c, hlookup⟩
    exact ⟨(k ++ [name], .file x c), mem_below_iff.2 ⟨by simp, hlookup⟩, by simp [Entry.isFile]⟩

theorem sorted_filesBelow (disk : Disk) (top : Key) :
    (disk.filesBelow top).Pairwise fun a b => Key.less (a.1 ++ [a.2]) (b.1 ++ [b.2]) := by
  refine List.Pairwise.filterMap _ ?_ (sorted_below disk top)
  rintro ⟨i, e⟩ ⟨i', e'⟩ hless b hb b' hb'
  have hplace : ∀ {i : Key} {e : Entry} {b : Key × Text},
      (if e.isFile then i.getLast?.map (i.dropLast, ·) else none) = some b → i = b.1 ++ [b.2] := by
    intro i e b hb
    split at hb
    next =>
      obtain ⟨name, hlast, rfl⟩ := Option.map_eq_some_iff.1 hb
      obtain ⟨front, rfl⟩ := List.getLast?_eq_some_iff.1 hlast
      rw [List.dropLast_concat]
    next => cases hb
  rwa [← hplace hb, ← hplace hb']

theorem lookup_clear : (disk.clear k).lookup j = if k <+: j ∧ j ≠ k then none else disk.lookup j := by
  unfold lookup
  by_cases hj : j = []
  · rw [if_pos hj, if_pos hj, if_neg]
    rintro ⟨hpre, hne⟩
    rw [hj, List.prefix_nil] at hpre
    exact hne (hj.trans hpre.symm)
  · rw [if_neg hj, if_neg hj]
    show (disk.entries.filter _).lookup j = _
    rw [lookup_filter fun k' => !(k.within k' && k' ≠ k)]
    by_cases hbelow : k <+: j ∧ j ≠ k
    · have hwithin : k.within j = true := List.isPrefixOf_iff_prefix.2 hbelow.1
      rw [if_pos hbelow, if_neg (by simp [hwithin, hbelow.2])]
    · rw [if_neg hbelow, if_pos]
      rw [Bool.not_eq_true', Bool.and_eq_false_imp, decide_eq_false_iff_not]
      exact fun hwithin hne => hbelow ⟨List.isPrefixOf_iff_prefix.1 hwithin, hne⟩

/-- Above what is there is a folder. -/
theorem Closed.above (h : disk.Closed) (hlookup : disk.lookup (k ++ j) = some e) (hj : j ≠ []) :
    disk.lookup k = some .folder := by
  refine Classical.byContradiction fun hk => ?_
  rw [h.below hk (List.prefix_append k j) (by simp [hj])] at hlookup
  cases hlookup

-- ========================================================================== trees

/-- Whether below a place there are only folders and files, under proper names. -/
def Plain (disk : Disk) (top : Key) : Prop :=
  ∀ k name e, disk.lookup (top ++ (k ++ [name])) = some e →
    IsStep name ∧ '/' ∉ name ∧ (e.isFile || e.isFolder)

/-- Two disks that agree at all places but those below one. -/
def AgreeAround (top : Key) (disk disk' : Disk) : Prop :=
  ∀ j, (top <+: j → j = top) → disk'.lookup j = disk.lookup j

/-- Whether a tree of folders and files hangs at a place, which the path of its folder
reaches whatever stands in the tree. -/
structure Tree (base : Text) (top : Key) (disk : Disk) : Prop where
  closed : disk.Closed
  plain : Plain disk top
  reached : ∀ disk', AgreeAround top disk disk' → ∃ left, Reaches disk' 40 [] (lead base) left top

theorem AgreeAround.refl (top : Key) (disk : Disk) : AgreeAround top disk disk := fun _ _ => rfl

theorem AgreeAround.trans (h : AgreeAround top disk disk') (h' : AgreeAround top disk' disk'') :
    AgreeAround top disk disk'' := fun j hj => (h' j hj).trans (h j hj)

/-- A change of places below a place. -/
theorem agreeAround_of (h : ∀ j, disk'.lookup j ≠ disk.lookup j → ∃ k, k ≠ [] ∧ j = top ++ k) :
    AgreeAround top disk disk' := by
  intro j hj
  refine Classical.byContradiction fun hne => ?_
  obtain ⟨k, hk, rfl⟩ := h j hne
  exact hk (by simpa using hj (List.prefix_append top k))

theorem Plain.isStep (h : Plain disk top) (hclosed : disk.Closed)
    (hlookup : disk.lookup (top ++ k) = some e) : ∀ name ∈ k, IsStep name ∧ '/' ∉ name := by
  intro name hname
  obtain ⟨front, back, rfl⟩ := List.append_of_mem hname
  have hstep : ∃ e, disk.lookup (top ++ (front ++ [name])) = some e := by
    rw [List.append_cons, ← List.append_assoc] at hlookup
    by_cases hback : back = []
    · rw [hback, List.append_nil] at hlookup
      exact ⟨e, hlookup⟩
    · exact ⟨_, hclosed.above hlookup hback⟩
  obtain ⟨e, he⟩ := hstep
  obtain ⟨hstep, hslash, -⟩ := h front name e he
  exact ⟨hstep, hslash⟩

instance (step : Text) : Decidable (IsStep step) :=
  decidable_of_iff (Path.isIdle step = false ∧ step ≠ "..".toList ∧ Text.byteSize step ≤ longestName)
    ⟨fun h => ⟨h.1, h.2.1, h.2.2⟩, fun h => ⟨h.idle, h.up, h.size⟩⟩

instance (path : Text) : Decidable (IsPath path) :=
  decidable_of_iff ('\x00' ∉ path ∧ path ≠ [] ∧ Text.byteSize path ≤ longestPath)
    ⟨fun h => ⟨h.1, h.2.1, h.2.2⟩, fun h => ⟨h.noNul, h.not_nil, h.size⟩⟩

/-- A disk on which every entry that is listed is a folder or a file with a proper name. -/
theorem plain_of_forall_mem (h : ∀ entry ∈ disk.entries, ∀ name ∈ entry.1.getLast?,
    IsStep name ∧ '/' ∉ name ∧ (entry.2.isFile || entry.2.isFolder)) (top : Key) : Plain disk top := by
  intro k name e hlookup
  rw [lookup, if_neg (by simp)] at hlookup
  refine h _ (mem_of_lookup hlookup) name ?_
  rw [← List.append_assoc, List.getLast?_concat]
  rfl

/-- A disk without links is a tree. -/
theorem tree_of_plain (hclosed : disk.Closed) (hplain : Plain disk []) : Tree [] [] disk where
  closed := hclosed
  plain := hplain
  reached := fun _ _ => ⟨40, .arrived⟩

/-- It is one by the path of the root, too. -/
theorem tree_of_plain_root (hclosed : disk.Closed) (hplain : Plain disk []) : Tree ['/'] [] disk where
  closed := hclosed
  plain := hplain
  reached := fun _ _ => ⟨40, .idle rfl .arrived⟩

/-- A name in a folder without links leads to what stands there. -/
theorem Plain.leads_name_iff (hplain : Plain disk here) (hname : IsName name) :
    Leads disk follow links here [name] r ↔ IsStep name ∧ r = disk.place (here ++ [name]) := by
  cases follow with
  | false => exact leads_name hname
  | true =>
      have hentry : disk.lookup (here ++ [name]) = none
          ∨ ∃ e, disk.lookup (here ++ [name]) = some e ∧ (e.isFile || e.isFolder) := by
        cases hlookup : disk.lookup (here ++ [name]) with
        | none => exact .inl rfl
        | some e => exact .inr ⟨e, rfl, (hplain [] name e hlookup).2.2⟩
      constructor
      · intro h
        cases h with
        | idle _ _ _ _ _ hidle _ =>
            rw [hname.idle] at hidle
            cases hidle
        | up _ _ _ _ _ => exact absurd rfl hname.up
        | free _ _ _ _ hstep hnone _ => exact ⟨hstep, (place_of_none hnone).symm⟩
        | folder _ _ _ _ _ hstep hfolder hrest =>
            cases hrest
            exact ⟨hstep, (place_of_some hfolder).symm⟩
        | file _ _ _ _ _ hstep hfile => exact ⟨hstep, (place_of_some hfile).symm⟩
        | slashed _ _ _ _ _ _ _ _ hne _ => exact absurd rfl hne
        | link _ _ _ _ _ _ hfollow => cases hfollow
        | followed _ _ _ _ _ _ _ hlink _ _ _ =>
            -- nothing there is a link to follow
            rcases hentry with hnone | ⟨e, hsome, hkind⟩
            · rw [hnone] at hlink
              cases hlink
            · rw [hsome] at hlink
              cases hlink
              cases hkind
      · rintro ⟨hstep, rfl⟩
        rcases hentry with hnone | ⟨e, hsome, hkind⟩
        · rw [place_of_none hnone]
          exact .free _ _ _ [] hstep hnone rfl
        · rw [place_of_some hsome]
          cases e with
          | folder => exact .folder _ _ _ _ _ hstep hsome (.arrived _ _)
          | file x c => exact .file _ _ _ _ _ hstep hsome
          | link target => cases hkind

/-- A way that goes on behind a name goes on in a folder. -/
theorem Plain.leads_cons_iff {step : Text} {rest : List Text} (hplain : Plain disk here) (hname : IsName step)
    (hrest : rest.all (· = []) = false) : Leads disk follow links here (step :: rest) r
      ↔ disk.lookup (here ++ [step]) = some .folder ∧ Leads disk follow links (here ++ [step]) rest r := by
  have hne : rest ≠ [] := by
    rintro rfl
    cases hrest
  constructor
  · intro h
    cases h with
    | idle _ _ _ _ _ hidle _ =>
        rw [hname.idle] at hidle
        cases hidle
    | up _ _ _ _ _ => exact absurd rfl hname.up
    | free _ _ _ _ _ _ hall =>
        rw [hrest] at hall
        cases hall
    | folder _ _ _ _ _ _ hfolder htail => exact ⟨hfolder, htail⟩
    | file _ _ _ _ _ _ _ => exact absurd rfl hne
    | slashed _ _ _ _ _ _ _ _ _ hall =>
        rw [hrest] at hall
        cases hall
    | link _ _ _ _ _ _ _ => exact absurd rfl hne
    | followed _ _ _ _ _ _ _ hlink _ _ _ =>
        have hkind := (hplain [] step _ hlink).2.2
        cases hkind
  · rintro ⟨hfolder, htail⟩
    exact .folder _ _ _ _ _ (hplain [] step _ hfolder).1 hfolder htail

/-- Names on from a place without links below it lead to what stands there. -/
theorem Plain.leads_iff (hplain : Plain disk here) (hclosed : disk.Closed)
    (hfolder : disk.lookup here = some .folder) (hnames : ∀ n ∈ k ++ [name], IsName n) :
    Leads disk follow links here (k ++ [name]) r ↔ IsStep name
      ∧ disk.lookup (here ++ k) = some .folder ∧ r = disk.place (here ++ (k ++ [name])) := by
  have hname := hnames name (by simp)
  induction k generalizing here with
  | nil => simp only [List.nil_append, List.append_nil, hfolder, true_and, hplain.leads_name_iff hname]
  | cons step k ih =>
      have hmore : ∀ n ∈ k ++ [name], IsName n := fun n hn => hnames n (List.mem_cons_of_mem _ hn)
      have hbelow : Plain disk (here ++ [step]) := fun k name e he =>
        hplain (step :: k) name e (by simpa using he)
      rw [List.cons_append, hplain.leads_cons_iff (hnames step (by simp)) (all_append_single hname k),
        List.append_cons here step k, List.append_cons here step (k ++ [name])]
      constructor
      · rintro ⟨hfolder', htail⟩
        exact (ih hbelow hfolder' hmore).1 htail
      · rintro ⟨hstep, hlast, rfl⟩
        have hfolder' : disk.lookup (here ++ [step]) = some .folder := by
          by_cases hk : k = []
          · rw [hk, List.append_nil] at hlast
            exact hlast
          · exact hclosed.above hlast hk
        exact ⟨hfolder', (ih hbelow hfolder' hmore).2 ⟨hstep, hlast, rfl⟩⟩

/-- The way over folders by their names. -/
theorem reaches_names (h : ∀ front name back, k = front ++ name :: back →
      IsStep name ∧ disk.lookup (here ++ (front ++ [name])) = some .folder) :
    Reaches disk links here k links (here ++ k) := by
  induction k generalizing here with
  | nil =>
      rw [List.append_nil]
      exact .arrived
  | cons name k ih =>
      obtain ⟨hstep, hfolder⟩ := h [] name k rfl
      rw [List.append_cons]
      refine .folder hstep hfolder (ih fun front n back heq => ?_)
      rw [List.append_assoc]
      exact h (name :: front) n back (by rw [heq]; rfl)

theorem isFolder_eq_true_iff :
    disk.isFolder path = true ↔ ∃ k, disk.locate true path = .ok (.entry k .folder) := by
  unfold isFolder entry? find
  cases hlocate : disk.locate true path with
  | error fault =>
      refine iff_of_false Bool.false_ne_true ?_
      rintro ⟨k, heq⟩
      cases heq
  | ok r =>
      match r with
      | .entry k .folder => exact iff_of_true rfl ⟨k, rfl⟩
      | .entry k (.file _ _) | .entry k (.link _) | .slashed k | .free k _ =>
          refine iff_of_false Bool.false_ne_true ?_
          rintro ⟨k, heq⟩
          cases heq

/-- Where the last folder cannot be made, and not for those above it, none is made. -/
theorem makeFolders_of_error {fault : Fault} (hne : path ≠ []) (hfault : fault ≠ .missing)
    (h : disk.makeFolder path = .error fault) :
    disk.makeFolders path = (if disk.isFolder path then .ok () else .error fault, disk) := by
  unfold makeFolders
  rw [if_neg hne]
  generalize parentsOf path.length path = parents
  cases parents with
  | nil | cons parent parents =>
      unfold makeFolderBelow
      rw [h]
      cases fault with
      | missing => exact absurd rfl hfault
      | _ => rfl

/-- So it is where a folder is. -/
theorem makeFolders_of_locate (hbare : Path.bare path = path)
    (h : disk.locate true path = .ok (.entry k .folder)) : disk.makeFolders path = (.ok (), disk) := by
  obtain ⟨j, e, hentry⟩ := unfollowed h
  have hmake : disk.makeFolder path = .error .alreadyThere := by
    unfold makeFolder
    rw [hbare, hentry]
    rfl
  rw [makeFolders_of_error (locate_eq_ok_iff.1 h).1.not_nil (by simp) hmake, isFolder_eq_true_iff.2 ⟨k, h⟩]
  rfl

/-- Right above a folder is the one that the names but the last lead to. -/
theorem parentsOf_under {names : List Text} (hne : names ≠ []) (hnames : ∀ n ∈ names ++ [name], IsPlain n)
    (depth : Nat) : parentsOf (depth + 1) (under base (names ++ [name]))
      = under base names :: parentsOf depth (under base names) :=
  parentsOf_succ (Path.parent?_under_concat hne hnames)
    (Path.under_ne_nil hne fun n hn => hnames n (List.mem_append_left _ hn)) depth

/-- Making a folder below one that can be reached, with those in between, makes folders of
these names, if any. -/
theorem grown_makeFolderBelow_under {left depth : Nat} {names : List Text} (hclosed : disk.Closed)
    (hreaches : Reaches disk 40 [] (lead base) left top) (hnames : ∀ n ∈ names, IsStep n ∧ '/' ∉ n)
    (hk : k ≠ []) (hmem : ∀ n ∈ k, n ∈ names) (hdepth : (under base k).length ≤ depth) :
    Grown names disk (disk.makeFolderBelow (under base k) (parentsOf depth (under base k))).2 := by
  have hplain : ∀ n ∈ k, IsPlain n := fun n hn =>
    ⟨(hnames n (hmem n hn)).1.isName, (hnames n (hmem n hn)).2⟩
  have hnil : under base k ≠ [] := Path.under_ne_nil hk hplain
  induction depth generalizing k with
  | zero => exact absurd (List.eq_nil_of_length_eq_zero (Nat.le_zero.1 hdepth)) hnil
  | succ depth ih =>
      obtain ⟨front, name, rfl⟩ := List.eq_nil_or_concat' k |>.resolve_left hk
      have hname := hmem name (by simp)
      have hstep := (hnames name hname).1
      have hsegments : Path.segments (under base (front ++ [name])) = (lead base ++ front) ++ [name] := by
        rw [Path.segments_under (by simp) hplain, List.append_assoc]
      refine grown_makeFolderBelow hclosed hsegments hstep.isName hname fun hmissing parent hparent => ?_
      by_cases hfront : front = []
      · -- the folder is there, so nothing above is missing
        subst hfront
        rw [List.append_nil] at hsegments
        exact absurd hmissing (makeFolder_ne_missing hsegments hstep hreaches)
      · have hlength := @Path.length_under_concat base name front hfront hplain
        have hfronts : ∀ n ∈ front, IsPlain n := fun n hn => hplain n (List.mem_append_left _ hn)
        rw [parentsOf_under hfront hplain] at hparent ⊢
        obtain rfl := Option.some.inj hparent
        exact ih hfront (fun n hn => hmem n (List.mem_append_left _ hn)) (by omega) hfronts
          (Path.under_ne_nil hfront hfronts)

theorem grown_makeFolders_under {left : Nat} {names : List Text} (hclosed : disk.Closed)
    (hreaches : Reaches disk 40 [] (lead base) left top) (hnames : ∀ n ∈ names, IsStep n ∧ '/' ∉ n)
    (hk : k ≠ []) (hmem : ∀ n ∈ k, n ∈ names) : Grown names disk (disk.makeFolders (under base k)).2 := by
  unfold Disk.makeFolders
  split
  · exact .refl hclosed
  · exact grown_makeFolderBelow_under hclosed hreaches hnames hk hmem (Nat.le_refl _)

-- ==================================================================== below a folder

/-- The steps in front of what is joined to the path of a folder reach it. -/
theorem reaches_lead (h : disk.locate true base = .ok (.entry top .folder)) :
    ∃ left, Reaches disk 40 [] (lead base) left top := by
  obtain ⟨hpath, hleads⟩ := locate_eq_ok_iff.1 h
  obtain ⟨left, hreaches⟩ := hleads.reaches
  refine ⟨left, ?_⟩
  rcases (Path.segments_eq_lead hpath.not_nil).2 with hsegments | hsegments
  · rw [← hsegments]
    exact hreaches
  · rw [hsegments] at hreaches
    exact hreaches.of_idle rfl

/-- A folder below a folder is reached by the names that lead there, whatever links there are
beside it. -/
theorem reaches_below (hclosed : disk.Closed) (h : disk.locate true base = .ok (.entry top .folder))
    (hlookup : disk.lookup (top ++ k) = some .folder) (hnames : ∀ n ∈ k, IsStep n) :
    ∃ left, Reaches disk 40 [] (lead base ++ k) left (top ++ k) := by
  obtain ⟨left, hreaches⟩ := reaches_lead h
  refine ⟨left, hreaches.append (reaches_names fun front n back heq => ⟨hnames n (by simp [heq]), ?_⟩)⟩
  have hsplit : top ++ k = (top ++ (front ++ [n])) ++ back := by simp [heq]
  rw [hsplit] at hlookup
  by_cases hback : back = []
  · rw [hback, List.append_nil] at hlookup
    exact hlookup
  · exact hclosed.above hlookup hback

/-- So it is found by the path that goes on by these names. -/
theorem locate_folder_below (hclosed : disk.Closed) (h : disk.locate true base = .ok (.entry top .folder))
    (hlookup : disk.lookup (top ++ k) = some .folder) (hk : k ≠ []) (hnames : ∀ n ∈ k, IsStep n ∧ '/' ∉ n)
    (hpath : IsPath (under base k)) : disk.locate true (under base k) = .ok (.entry (top ++ k) .folder) := by
  obtain ⟨left, hreaches⟩ := reaches_below hclosed h hlookup fun n hn => (hnames n hn).1
  rw [locate_eq_ok_iff, Path.segments_under hk (isPlain_of_steps hnames)]
  exact ⟨hpath, hreaches.leads_folder⟩

/-- So is a file. -/
theorem locate_file_below {x : Bool} {c : Content} (hclosed : disk.Closed)
    (h : disk.locate true base = .ok (.entry top .folder))
    (hlookup : disk.lookup (top ++ k) = some (.file x c)) (hk : k ≠ [])
    (hnames : ∀ n ∈ k, IsStep n ∧ '/' ∉ n) (hpath : IsPath (under base k)) :
    disk.locate follow (under base k) = .ok (.entry (top ++ k) (.file x c)) := by
  obtain ⟨front, name, rfl⟩ := List.eq_nil_or_concat' k |>.resolve_left hk
  have hplain := isPlain_of_steps hnames
  rw [← List.append_assoc] at hlookup ⊢
  obtain ⟨left, hreaches⟩ := reaches_below hclosed h (hclosed _ _ _ hlookup) fun n hn =>
    (hnames n (List.mem_append_left _ hn)).1
  rw [locate_eq_ok_iff, Path.segments_under (by simp) hplain, ← List.append_assoc]
  exact ⟨hpath, hreaches.leads (.file _ _ _ _ _ (hnames name (by simp)).1 hlookup) (by simp)⟩

/-- What a walk from a folder meets. -/
theorem walk_folder (h : disk.locate true base = .ok (.entry top .folder)) :
    ∃ start, start.isFile = false ∧ disk.walk base
      = .ok (⟨base, start⟩ :: (disk.below top).map fun entry => ⟨under base entry.1, entry.2⟩) := by
  obtain ⟨k, start, hstart⟩ := unfollowed h
  have hfile : start.isFile = false := by
    cases start with
    | file x c =>
        have hfollowed := (locate_eq_ok_iff.1 hstart).2.follow_file
        have hsame := hfollowed.unique (locate_eq_ok_iff.1 h).2
        cases hsame
    | folder => rfl
    | link target => rfl
  have hfind : disk.find false base = .ok (k, start) := by
    rw [find, hstart]
    rfl
  have hfindtop : disk.find true base = .ok (top, .folder) := by
    rw [find, h]
    rfl
  refine ⟨start, hfile, ?_⟩
  unfold Disk.walk
  rw [hfind]
  cases start with
  | file x c => cases hfile
  | folder | link target =>
      show (disk.find true base >>= _) = _
      rw [hfindtop]
      rfl

namespace Tree

variable (tree : Tree base top disk)

include tree

theorem reaches : ∃ left, Reaches disk 40 [] (lead base) left top := tree.reached disk (.refl top disk)

theorem folder : disk.lookup top = some .folder := by
  obtain ⟨left, hreaches⟩ := tree.reaches
  exact hreaches.lookup tree.closed (lookup_nil disk)

theorem grown_makeFolders {names : List Text} (hnames : ∀ n ∈ names, IsStep n ∧ '/' ∉ n) (hk : k ≠ [])
    (hmem : ∀ n ∈ k, n ∈ names) : Grown names disk (disk.makeFolders (under base k)).2 := by
  obtain ⟨left, hreaches⟩ := tree.reaches
  exact grown_makeFolders_under tree.closed hreaches hnames hk hmem

/-- What happens inside leaves a tree if it leaves only folders and files. -/
theorem congr (haround : AgreeAround top disk disk') (hclosed : disk'.Closed) (hplain : Plain disk' top) :
    Tree base top disk' where
  closed := hclosed
  plain := hplain
  reached := fun disk'' h => tree.reached disk'' (haround.trans h)

/-- A tree stays one, whatever happens to it and to files around it, if it has no links
after that. -/
theorem of_kept (hkept : ∀ j e, (top <+: j → j = top) → e.isFile = false → disk.lookup j = some e →
      disk'.lookup j = some e) (hclosed : disk'.Closed) (hplain : Plain disk' top) : Tree base top disk' where
  closed := hclosed
  plain := hplain
  reached := by
    intro disk'' haround
    have hclear : AgreeAround top disk (disk.clear top) := by
      intro j hj
      rw [lookup_clear, if_neg fun hbelow => hbelow.2 (hj hbelow.1)]
    obtain ⟨left, hreaches⟩ := tree.reached _ hclear
    refine ⟨left, hreaches.of_kept fun j e he hlookup => ?_⟩
    rw [lookup_clear] at hlookup
    split at hlookup
    next => cases hlookup
    next hj =>
      have hoff : top <+: j → j = top := fun hpre => Classical.byContradiction fun hne => hj ⟨hpre, hne⟩
      rw [haround j hoff]
      exact hkept j e hoff he hlookup

/-- A tree in which folders are made. -/
theorem grown {names : List Text} (hgrown : Grown names disk disk')
    (hnames : ∀ n ∈ names, IsStep n ∧ '/' ∉ n) : Tree base top disk' := by
  refine tree.of_kept (fun j e _ _ => hgrown.kept j e) hgrown.closed fun k name e hlookup => ?_
  rcases hgrown.new _ _ hlookup with hlookup | ⟨rfl, n, hn, hlast⟩
  · exact tree.plain k name e hlookup
  · rw [← List.append_assoc, List.getLast?_concat] at hlast
    cases hlast
    obtain ⟨hstep, hslash⟩ := hnames name hn
    exact ⟨hstep, hslash, rfl⟩

/-- A tree in which, or around which, a file comes, goes or has another content. -/
theorem change (hchange : Change j disk disk')
    (hnames : ∀ k name e, disk'.lookup (top ++ (k ++ [name])) = some e → j = top ++ (k ++ [name]) →
      IsStep name ∧ '/' ∉ name) : Tree base top disk' := by
  refine tree.of_kept (fun i e _ he hlookup => ?_) hchange.closed fun k name e hlookup => ?_
  · rw [hchange.same i]
    · exact hlookup
    · rintro rfl
      rw [hchange.leaf e hlookup] at he
      cases he
  · by_cases heq : top ++ (k ++ [name]) = j
    · obtain ⟨hstep, hslash⟩ := hnames k name e hlookup heq.symm
      rw [heq] at hlookup
      exact ⟨hstep, hslash, by rw [hchange.leaf' e hlookup]; rfl⟩
    · rw [hchange.same _ heq] at hlookup
      exact tree.plain k name e hlookup

/-- The names that lead to an entry. -/
theorem isPlain (h : disk.lookup (top ++ k) = some e) : ∀ name ∈ k, IsPlain name := by
  intro name hname
  obtain ⟨hstep, hslash⟩ := tree.plain.isStep tree.closed h name hname
  exact ⟨hstep.isName, hslash⟩

/-- An entry is a folder or a file. -/
theorem folder_or_file (h : disk.lookup (top ++ k) = some e) : e = .folder ∨ ∃ x c, e = .file x c := by
  rcases List.eq_nil_or_concat' k with rfl | ⟨k, name, rfl⟩
  · rw [List.append_nil, tree.folder] at h
    cases h
    exact .inl rfl
  · have hkind := (tree.plain k name e h).2.2
    cases e with
    | folder => exact .inl rfl
    | file x c => exact .inr ⟨x, c, rfl⟩
    | link target => cases hkind

-- ======================================================================= its paths

/-- Where the path below the folder leads that goes on by names. -/
theorem locate (hnames : ∀ n ∈ k ++ [name], IsPlain n) :
    disk.locate follow (under base (k ++ [name])) = .ok r ↔ IsPath (under base (k ++ [name]))
      ∧ IsStep name ∧ disk.lookup (top ++ k) = some .folder ∧ r = disk.place (top ++ (k ++ [name])) := by
  have hname := hnames name (by simp)
  have hleads : ∀ {links}, Leads disk follow links top (k ++ [name]) r ↔ IsStep name
      ∧ disk.lookup (top ++ k) = some .folder ∧ r = disk.place (top ++ (k ++ [name])) :=
    tree.plain.leads_iff tree.closed tree.folder fun n hn => (hnames n hn).toIsName
  rw [locate_eq_ok_iff, Path.segments_under (by simp) hnames]
  refine and_congr_right fun _ => ⟨fun h => ?_, fun h => ?_⟩
  · obtain ⟨left, there, hreaches, hrest⟩ := h.split (all_append_single hname.toIsName k)
    obtain ⟨left', hreaches'⟩ := tree.reaches
    obtain ⟨-, rfl⟩ := hreaches'.unique hreaches
    exact hleads.1 hrest
  · obtain ⟨left, hreaches⟩ := tree.reaches
    exact hreaches.leads (hleads.2 h) (by simp)

/-- Which entry it leads to. -/
theorem locate_entry (hk : k ≠ []) (hnames : ∀ n ∈ k, IsPlain n) :
    disk.locate follow (under base k) = .ok (.entry j e) ↔ IsPath (under base k)
      ∧ j = top ++ k ∧ disk.lookup (top ++ k) = some e := by
  obtain ⟨k, name, rfl⟩ := List.eq_nil_or_concat' k |>.resolve_left hk
  rw [tree.locate hnames]
  refine and_congr_right fun _ => ⟨?_, ?_⟩
  · rintro ⟨-, -, hplace⟩
    cases hlookup : disk.lookup (top ++ (k ++ [name])) with
    | none =>
        rw [place_of_none hlookup] at hplace
        cases hplace
    | some e' =>
        rw [place_of_some hlookup] at hplace
        cases hplace
        exact ⟨rfl, rfl⟩
  · rintro ⟨rfl, hlookup⟩
    refine ⟨(tree.plain k name e hlookup).1, ?_, (place_of_some hlookup).symm⟩
    rw [← List.append_assoc] at hlookup
    exact tree.closed _ _ _ hlookup

theorem holds_iff (hk : k ≠ []) (hnames : ∀ n ∈ k, IsPlain n) :
    disk.holds (under base k) = true ↔ IsPath (under base k) ∧ ∃ e, disk.lookup (top ++ k) = some e := by
  rw [Disk.holds_iff]
  constructor
  · rintro ⟨j, e, h⟩
    obtain ⟨hpath, -, hlookup⟩ := (tree.locate_entry hk hnames).1 h
    exact ⟨hpath, e, hlookup⟩
  · rintro ⟨hpath, e, hlookup⟩
    exact ⟨top ++ k, e, (tree.locate_entry hk hnames).2 ⟨hpath, rfl, hlookup⟩⟩

theorem isFolder_iff (hk : k ≠ []) (hnames : ∀ n ∈ k, IsPlain n) :
    disk.isFolder (under base k) = true ↔ IsPath (under base k) ∧ disk.lookup (top ++ k) = some .folder := by
  rw [isFolder_eq_true_iff]
  constructor
  · rintro ⟨j, h⟩
    obtain ⟨hpath, -, hlookup⟩ := (tree.locate_entry hk hnames).1 h
    exact ⟨hpath, hlookup⟩
  · rintro ⟨hpath, hlookup⟩
    exact ⟨top ++ k, (tree.locate_entry hk hnames).2 ⟨hpath, rfl, hlookup⟩⟩

theorem holdsText_iff {t : Text} (hk : k ≠ []) (hnames : ∀ n ∈ k, IsPlain n) :
    disk.HoldsText (under base k) j t ↔ IsPath (under base k) ∧ j = top ++ k
      ∧ ∃ x, disk.lookup (top ++ k) = some (.file x (.text t)) := by
  constructor
  · rintro ⟨x, h⟩
    obtain ⟨hpath, rfl, hlookup⟩ := (tree.locate_entry hk hnames).1 h
    exact ⟨hpath, rfl, x, hlookup⟩
  · rintro ⟨hpath, rfl, x, hlookup⟩
    exact ⟨x, (tree.locate_entry hk hnames).2 ⟨hpath, rfl, hlookup⟩⟩

/-- The path of the folder leads to it. -/
theorem locate_base (hpath : IsPath base) : disk.locate true base = .ok (.entry top .folder) := by
  obtain ⟨left, hreaches⟩ := tree.reaches
  refine locate_eq_ok_iff.2 ⟨hpath, ?_⟩
  rcases (Path.segments_eq_lead hpath.not_nil).2 with hsegments | hsegments
  · rw [hsegments]
    exact hreaches.leads_folder
  · rw [hsegments]
    exact hreaches.leads (.idle _ _ _ _ _ rfl (.arrived _ _)) (by simp)

theorem isFolder_base (hpath : IsPath base) : disk.isFolder base = true :=
  isFolder_eq_true_iff.2 ⟨top, tree.locate_base hpath⟩

/-- The part of a tree at and below a folder. -/
theorem sub (hk : k ≠ []) (hfolder : disk.lookup (top ++ k) = some .folder) :
    Tree (under base k) (top ++ k) disk where
  closed := tree.closed
  plain := by
    intro j name e hlookup
    rw [List.append_assoc, ← List.append_assoc k] at hlookup
    exact tree.plain _ _ _ hlookup
  reached := by
    intro disk' haround
    have hlonger : ∀ front back : Key, k = front ++ back → disk'.lookup (top ++ front) = disk.lookup (top ++ front) := by
      rintro front back rfl
      refine haround _ fun hpre => ?_
      rw [List.prefix_append_right_inj] at hpre
      rw [hpre.eq_of_length_le (by simp)]
    have houter : AgreeAround top disk disk' := by
      intro j hj
      refine haround j fun hpre => absurd ?_ hk
      rw [hj ((List.prefix_append top k).trans hpre)] at hpre
      have hlength := hpre.length_le
      rw [List.length_append] at hlength
      exact List.length_eq_zero_iff.1 (by omega)
    obtain ⟨left, hreaches⟩ := tree.reached disk' houter
    rw [Path.lead_under hk (tree.isPlain hfolder)]
    refine ⟨left, hreaches.append (reaches_names fun front name back heq => ?_)⟩
    obtain ⟨hstep, -⟩ := tree.plain.isStep tree.closed hfolder name (by simp [heq])
    refine ⟨hstep, ?_⟩
    rw [hlonger (front ++ [name]) back (by simp [heq])]
    by_cases hback : back = []
    · rw [heq, hback] at hfolder
      exact hfolder
    · rw [heq, List.append_cons front, ← List.append_assoc] at hfolder
      exact tree.closed.above hfolder hback

-- ========================================================================= a walk

/-- What a walk from the folder meets. -/
theorem walk (hpath : IsPath base) :
    ∃ start, start.isFile = false ∧ disk.walk base
      = .ok (⟨base, start⟩ :: (disk.below top).map fun entry => ⟨under base entry.1, entry.2⟩) :=
  walk_folder (tree.locate_base hpath)

end Tree

theorem isPath_of_walk {visits : List Visit} (h : disk.walk path = .ok visits) : IsPath path := by
  unfold walk find at h
  cases hlocate : disk.locate false path with
  | error fault =>
      rw [hlocate] at h
      cases h
  | ok r => exact (locate_eq_ok_iff.1 hlocate).1

namespace Tree

variable (tree : Tree base top disk)

include tree

/-- A folder in the tree is listed. -/
theorem list_eq (hk : k ≠ []) (hnames : ∀ n ∈ k, IsPlain n) (hfolder : disk.isFolder (under base k) = true) :
    disk.list (under base k) = .ok (disk.children (top ++ k)) := by
  obtain ⟨hpath, hlookup⟩ := (tree.isFolder_iff hk hnames).1 hfolder
  unfold Disk.list find
  rw [(tree.locate_entry hk hnames).2 ⟨hpath, rfl, hlookup⟩]
  rfl

/-- What is listed of a folder in the tree. -/
theorem list {entries : List (Text × Entry)} (hk : k ≠ []) (hnames : ∀ n ∈ k, IsPlain n)
    (h : disk.list (under base k) = .ok entries) : entries = disk.children (top ++ k) := by
  unfold Disk.list find at h
  cases hlocate : disk.locate true (under base k) with
  | error fault =>
      rw [hlocate] at h
      cases h
  | ok r =>
      rw [hlocate] at h
      match r, h with
      | .entry j .folder, h =>
          cases h
          obtain ⟨-, rfl, -⟩ := (tree.locate_entry hk hnames).1 hlocate
          rfl

end Tree

end Disk

end SiteScaffold

/-
Which of several files of one name the folder of their kind keeps, said of the tree before
anything is moved. It is the one that is there already, or else the first one that a walk
meets (`keeper`). All others stay, unless they are in the folder of script modules, which is
merged into the scripts and goes; and the counts that are given back are those of the files
that changed their place and of the attempts that found a name taken (`FirstWins`).

The four stages list the tree anew, each on the disk that those before it left. They do not
get in each other's way: a stage moves files of its kind under their names, so what stands
under a name changes in the stage of its kind alone (`Assorted`), and the files that a stage
lists are those of the tree at first (`strays_congr`). The merge comes last and can move what
a stage left behind, but it fills no place that a stage emptied: a walk meets the script
modules before the scripts (`keeper_ne_script`).
-/
import Mathlib.Algebra.GroupWithZero.Nat
import Mathlib.Data.List.Find
import SiteScaffold.Proofs.Export.Fate
import SiteScaffold.Proofs.Export.FirstOfName

namespace SiteScaffold.Export

open Disk (Tree)
open Path (IsPlain under)

variable {disk disk' mid : Disk} {j k source top : Key} {site name : Text} {moves : Moves} {e : Entry}
  {kind : AssetKind} {x : Bool} {c : Content}

-- ====================================================================== the listings

theorem sorted_strays (top : Key) (kind : AssetKind) (disk : Disk) :
    (strays top kind disk).Pairwise fun a b => Key.less (a.1 ++ [a.2]) (b.1 ++ [b.2]) :=
  (Disk.sorted_filesBelow disk top).filter _

/-- The files of a kind are listed by their places alone. -/
theorem strays_congr (h : ∀ k name, AssetKind.of? name = some kind →
      disk'.lookup (top ++ (k ++ [name])) = disk.lookup (top ++ (k ++ [name]))) :
    strays top kind disk' = strays top kind disk := by
  refine Key.eq_of_sorted (sorted_strays top kind disk') (sorted_strays top kind disk) fun ⟨k, name⟩ => ?_
  rw [mem_strays_iff, mem_strays_iff]
  refine and_congr_left fun hkind => ?_
  rw [h k name hkind.1]

/-- Under a name of another kind nothing is moved. -/
theorem entrant_strays_of_ne {folder : Key} (h : AssetKind.of? name ≠ some kind) :
    entrant top folder disk (strays top kind disk) name = none := by
  refine Option.eq_none_iff_forall_ne_some.2 fun source hsource => ?_
  obtain ⟨-, hfind⟩ := entrant_eq_some_iff.1 hsource
  exact h (mem_strays_iff.1 (List.mem_of_find?_eq_some hfind)).2.1

theorem nodup_modules (top : Key) (disk : Disk) : (modules top disk).Nodup := by
  have hnames := Disk.nodup_children disk (top ++ modulesHome)
  refine (List.Nodup.of_map _ hnames).filter _ |>.map_on fun a ha b hb heq => ?_
  have hname : a.1 = b.1 := congrArg Prod.snd heq
  exact List.inj_on_of_nodup_map hnames (List.mem_of_mem_filter ha) (List.mem_of_mem_filter hb) hname

/-- Of a script module there is one of its name. -/
theorem entrant_modules_iff {folder : Key} : entrant top folder disk (modules top disk) name = some source
    ↔ source = modulesHome ∧ disk.lookup (top ++ (folder ++ [name])) = none
      ∧ ∃ x c, disk.lookup (top ++ (modulesHome ++ [name])) = some (.file x c) := by
  rw [entrant_eq_some_iff]
  constructor
  · rintro ⟨hfree, hfind⟩
    obtain ⟨hsource, hfile⟩ := mem_modules_iff.1 (List.mem_of_find?_eq_some hfind)
    exact ⟨hsource, hfree, hfile⟩
  · rintro ⟨rfl, hfree, hfile⟩
    obtain ⟨k, hfind⟩ := exists_find? (mem_modules_iff.2 ⟨rfl, hfile⟩)
    obtain ⟨rfl, -⟩ := mem_modules_iff.1 (List.mem_of_find?_eq_some hfind)
    exact ⟨hfree, hfind⟩

-- ======================================================================== the stages

/-- What the stage of a kind comes to. -/
theorem gather_entered (tree : Tree site top disk) (h : (gather site kind).on disk = (.ok moves, disk')) :
    Tree site top disk' ∧ moves = tally top kind.home disk (strays top kind disk)
      ∧ ∀ k name, disk'.lookup (top ++ (k ++ [name]))
        = entered top kind.home disk (strays top kind disk) k name := by
  obtain ⟨files, disk₁, hfiles, hmoves⟩ := Edit.on_bind_eq_ok.1 h
  obtain ⟨rfl, -, rfl⟩ := filesOfKind_eq_ok tree hfiles
  rw [AssetKind.destination_eq] at hmoves
  refine moveAll_eq_ok tree kind.isPlain_home (by simp [AssetKind.home]) ?_
    (Key.nodup_of_sorted (sorted_strays top kind disk₁)) hmoves
  rintro ⟨k, name⟩ hmem
  obtain ⟨⟨x, c, hlookup⟩, -⟩ := mem_strays_iff.1 hmem
  exact ⟨tree.isPlain hlookup, by rw [hlookup]; simp⟩

/-- A disk with the files of some kinds in their folders: what stands under a name is what the
stage of its kind makes of the disk before. -/
structure Assorted (top : Key) (kinds : List AssetKind) (disk mid : Disk) : Prop where
  kind : ∀ kind ∈ kinds, ∀ k name, AssetKind.of? name = some kind →
    mid.lookup (top ++ (k ++ [name])) = entered top kind.home disk (strays top kind disk) k name
  other : ∀ k name, (∀ kind ∈ kinds, AssetKind.of? name ≠ some kind) →
    mid.lookup (top ++ (k ++ [name])) = disk.lookup (top ++ (k ++ [name]))

/-- What the stages of several kinds come to. -/
theorem gatherAll_entered {kinds : List AssetKind} {all : List Moves} (tree : Tree site top disk)
    (hnodup : kinds.Nodup) (h : (kinds.mapM (gather site)).on disk = (.ok all, mid)) :
    Tree site top mid ∧ Assorted top kinds disk mid
      ∧ all = kinds.map fun kind => tally top kind.home disk (strays top kind disk) := by
  -- by the first stage names of its kind are settled, and all others are as they were
  induction kinds generalizing disk all with
  | nil =>
      cases h
      exact ⟨tree, ⟨by simp, fun _ _ _ => rfl⟩, rfl⟩
  | cons kind kinds ih =>
      obtain ⟨first, disk₁, rest, hfirst, hrest, rfl⟩ := Edit.on_mapM_cons h
      obtain ⟨hnot, hnodup⟩ := List.nodup_cons.1 hnodup
      obtain ⟨tree₁, rfl, hlookup⟩ := gather_entered tree hfirst
      obtain ⟨tree', hassorted, rfl⟩ := ih tree₁ hnodup hrest
      have hsame : ∀ k name, AssetKind.of? name ≠ some kind →
          disk₁.lookup (top ++ (k ++ [name])) = disk.lookup (top ++ (k ++ [name])) := by
        intro k name hne
        rw [hlookup, entered_of_none (entrant_strays_of_ne hne)]
      have hother : ∀ kind' ∈ kinds, ∀ k name, AssetKind.of? name = some kind' →
          disk₁.lookup (top ++ (k ++ [name])) = disk.lookup (top ++ (k ++ [name])) := by
        intro kind' hmem k name hkind
        refine hsame k name fun heq => hnot ?_
        rw [hkind] at heq
        cases heq
        exact hmem
      have hstrays : ∀ kind' ∈ kinds, strays top kind' disk₁ = strays top kind' disk := fun kind' hmem =>
        strays_congr (hother kind' hmem)
      refine ⟨tree', ⟨fun kind' hmem k name hkind => ?_, fun k name hne => ?_⟩, ?_⟩
      · rcases List.mem_cons.1 hmem with rfl | hmem
        · rw [hassorted.other k name, hlookup]
          intro kind'' hmem heq
          rw [hkind] at heq
          cases heq
          exact hnot hmem
        · rw [hassorted.kind kind' hmem k name hkind, hstrays kind' hmem]
          exact entered_congr (fun k => hother kind' hmem k name hkind) k
      · rw [hassorted.other k name fun kind' hmem => hne kind' (List.mem_cons_of_mem _ hmem),
          hsame k name (hne kind (List.mem_cons_self ..))]
      · rw [List.map_cons]
        congr 1
        refine List.map_congr_left fun kind' hmem => ?_
        rw [hstrays kind' hmem]
        refine tally_congr fun file hfile => ?_
        exact hother kind' hmem _ _ (mem_strays_iff.1 hfile).2.1

/-- What the merge of the script modules makes of a disk. -/
inductive Merged (site : Text) (top : Key) (mid disk' : Disk) (moves : Moves) : Prop
  /-- There is no folder of them. -/
  | absent (hfolder : mid.isFolder (modulesFolder site) = false) (hmoves : moves = .none)
      (hdisk : disk' = mid)
  /-- Those right in their folder go among the scripts, and it goes with the rest. -/
  | gone (hfolder : mid.isFolder (modulesFolder site) = true)
      (hthere : mid.lookup (top ++ modulesHome) = some .folder)
      (hmoves : moves = tally top AssetKind.script.home mid (modules top mid))
      (hlookup : ∀ k name, disk'.lookup (top ++ (k ++ [name])) = if modulesHome <+: k ++ [name] then none
        else entered top AssetKind.script.home mid (modules top mid) k name)

/-- What the merge of the script modules comes to. -/
theorem foldModules_merged (tree : Tree site top mid)
    (h : (foldModules site).on mid = (.ok moves, disk')) : Merged site top mid disk' moves := by
  unfold foldModules at h
  dsimp only at h
  rw [Edit.on_bind_ok (Edit.on_ask _)] at h
  cases hfolder : mid.isFolder (modulesFolder site) with
  | false =>
      rw [hfolder] at h
      cases h
      exact .absent hfolder rfl rfl
  | true =>
      rw [hfolder, if_neg (by simp)] at h
      obtain ⟨entries, disk₁, hlist, hafterlist⟩ := Edit.on_bind_eq_ok.1 h
      obtain ⟨hentries, rfl⟩ := Edit.on_look_eq_ok.1 hlist
      obtain ⟨moved, disk₂, hmoves, haftermoves⟩ := Edit.on_bind_eq_ok.1 hafterlist
      obtain ⟨⟨⟩, disk₃, hremove, hanswer⟩ := Edit.on_bind_eq_ok.1 haftermoves
      cases hanswer
      have hne : modulesHome ≠ [] := by simp [modulesHome]
      rw [modulesFolder_eq] at hremove
      rw [moduleFiles_eq tree hentries, AssetKind.destination_eq] at hmoves
      have hplain : ∀ file ∈ modules top disk₁, (∀ n ∈ file.1 ++ [file.2], IsPlain n)
          ∧ disk₁.lookup (top ++ (file.1 ++ [file.2])) ≠ some .folder := by
        rintro ⟨k, name⟩ hmem
        obtain ⟨rfl, x, c, hlookup⟩ := mem_modules_iff.1 hmem
        exact ⟨tree.isPlain hlookup, by rw [hlookup]; simp⟩
      obtain ⟨tree₂, rfl, hlookup⟩ := moveAll_eq_ok tree AssetKind.script.isPlain_home
        (by simp [AssetKind.home]) hplain (nodup_modules top disk₁) hmoves
      have hthere : disk₁.lookup (top ++ modulesHome) = some .folder := by
        rw [modulesFolder_eq] at hfolder
        exact ((tree.isFolder_iff hne isPlain_modulesHome).1 hfolder).2
      obtain ⟨-, hgone⟩ := tree₂.removeTree hne isPlain_modulesHome (Edit.on_removeTree_eq_ok.1 hremove)
      refine .gone hfolder hthere rfl fun k name => ?_
      rw [hgone]
      simp only [List.prefix_append_right_inj, hlookup]

-- ================================================================== what kinds keep

/-- The folder of the file that its kind keeps under a name: the folder of the kind if something
of the name is there, else that of the first file of the name that a walk meets. -/
def keeper (top : Key) (disk : Disk) (kind : AssetKind) (name : Text) : Option Key :=
  if (disk.lookup (top ++ (kind.home ++ [name]))).isSome then some kind.home
  else ((disk.filesBelow top).find? (·.2 = name)).map (·.1)

theorem keeper_of_taken (h : disk.lookup (top ++ (kind.home ++ [name])) = some e) :
    keeper top disk kind name = some kind.home := by
  simp [keeper, h]

theorem keeper_eq_some_iff (h : disk.lookup (top ++ (kind.home ++ [name])) = none) :
    keeper top disk kind name = some k ↔ (disk.filesBelow top).find? (·.2 = name) = some (k, name) := by
  unfold keeper
  rw [h, Option.isSome_none, if_neg (by simp), map_find?_eq_some_iff]

/-- The stage of a kind moves what the kind keeps if it lies elsewhere. -/
theorem entrant_strays_iff (hkind : AssetKind.of? name = some kind) :
    entrant top kind.home disk (strays top kind disk) name = some source
      ↔ disk.lookup (top ++ (kind.home ++ [name])) = none ∧ keeper top disk kind name = some source := by
  rw [entrant_eq_some_iff]
  refine and_congr_right fun hfree => ?_
  rw [keeper_eq_some_iff hfree, strays, List.find?_filter]
  have hsame : ∀ file ∈ disk.filesBelow top,
      decide ((file.1 ≠ kind.home && AssetKind.of? file.2 = some kind) = true ∧ decide (file.2 = name) = true)
        = decide (file.2 = name) := by
    rintro ⟨k, n⟩ hmem
    by_cases hn : n = name
    · subst hn
      have hk : k ≠ kind.home := by
        rintro rfl
        obtain ⟨x, c, hlookup⟩ := Disk.mem_filesBelow_iff.1 hmem
        rw [hfree] at hlookup
        cases hlookup
      simp [hk, hkind]
    · simp [hn]
  rw [List.find?_congr hsame]

/-- A name that a file has is kept. -/
theorem exists_keeper (kind : AssetKind) (h : disk.lookup (top ++ (k ++ [name])) = some (.file x c)) :
    ∃ j e, keeper top disk kind name = some j ∧ disk.lookup (top ++ (j ++ [name])) = some e
      ∧ (j = kind.home ∨ e.isFile) := by
  cases hhome : disk.lookup (top ++ (kind.home ++ [name])) with
  | some e => exact ⟨kind.home, e, keeper_of_taken hhome, hhome, .inl rfl⟩
  | none =>
      obtain ⟨j, hfind⟩ := exists_find? (Disk.mem_filesBelow_iff.2 ⟨x, c, h⟩)
      obtain ⟨y, d, hlookup⟩ := Disk.mem_filesBelow_iff.1 (List.mem_of_find?_eq_some hfind)
      exact ⟨j, _, (keeper_eq_some_iff hhome).2 hfind, hlookup, .inr rfl⟩

/-- A walk meets it before all other files of the name. -/
theorem keeper_first (hfree : disk.lookup (top ++ (kind.home ++ [name])) = none)
    (hkeeper : keeper top disk kind name = some k)
    (hfile : disk.lookup (top ++ (j ++ [name])) = some (.file x c)) :
    j = k ∨ Key.less (k ++ [name]) (j ++ [name]) := by
  obtain ⟨-, front, back, hsplit, hfront⟩ :=
    List.find?_eq_some_iff_append.1 ((keeper_eq_some_iff hfree).1 hkeeper)
  have hsorted := Disk.sorted_filesBelow disk top
  have hmem : (j, name) ∈ disk.filesBelow top := Disk.mem_filesBelow_iff.2 ⟨x, c, hfile⟩
  rw [hsplit] at hsorted hmem
  rcases List.mem_append.1 hmem with hmem | hmem
  · have hother := hfront _ hmem
    simp at hother
  · rcases List.mem_cons.1 hmem with heq | hmem
    · cases heq
      exact .inl rfl
    · obtain ⟨-, hsorted, -⟩ := List.pairwise_append.1 hsorted
      exact .inr ((List.pairwise_cons.1 hsorted).1 _ hmem)

/-- The folder of script modules is met before that of scripts, so what another kind keeps under
the name of a script module does not lie among the scripts. -/
theorem keeper_ne_script (hkind : kind ≠ .script)
    (hfile : disk.lookup (top ++ (modulesHome ++ [name])) = some (.file x c)) :
    keeper top disk kind name ≠ some AssetKind.script.home := by
  intro hkeeper
  cases hhome : disk.lookup (top ++ (kind.home ++ [name])) with
  | some e =>
      rw [keeper_of_taken hhome] at hkeeper
      exact hkind (AssetKind.home_inj (Option.some.inj hkeeper))
  | none =>
      rcases keeper_first hhome hkeeper hfile with heq | hless
      · exact modulesHome_ne_home .script heq
      · have hbefore : Key.less ("js".toList :: [name]) ("controllers".toList :: [name]) = true := by
          rwa [← Key.less_append ["assets".toList]]
        have hletters : Text.less "js".toList "controllers".toList = true := by
          simpa [Key.less] using hbefore
        exact absurd hletters (by decide)

-- =============================================================== after all the stages

namespace Assorted

variable (h : Assorted top AssetKind.all disk mid)

include h

/-- What no kind keeps stays. -/
theorem stays (hlookup : disk.lookup (top ++ (k ++ [name])) = some e)
    (hnot : ∀ kind, AssetKind.of? name = some kind → keeper top disk kind name ≠ some k) :
    mid.lookup (top ++ (k ++ [name])) = some e := by
  cases hkind : AssetKind.of? name with
  | none => rwa [h.other k name fun kind _ => by simp [hkind]]
  | some kind =>
      rw [h.kind kind kind.mem_all k name hkind]
      cases hentrant : entrant top kind.home disk (strays top kind disk) name with
      | none => rwa [entered_of_none hentrant]
      | some source =>
          obtain ⟨hfree, hkeeper⟩ := (entrant_strays_iff hkind).1 hentrant
          rw [entered_of_some hentrant, if_neg, if_neg]
          · exact hlookup
          · rintro rfl
            exact hnot kind hkind hkeeper
          · rintro rfl
            rw [hfree] at hlookup
            cases hlookup

/-- What a kind keeps is in its folder. -/
theorem keeps (hkind : AssetKind.of? name = some kind) (hkeeper : keeper top disk kind name = some k)
    (hlookup : disk.lookup (top ++ (k ++ [name])) = some e) :
    mid.lookup (top ++ (kind.home ++ [name])) = some e := by
  rw [h.kind kind kind.mem_all _ name hkind]
  cases hhome : disk.lookup (top ++ (kind.home ++ [name])) with
  | some e' =>
      rw [entered_of_none (entrant_of_taken hhome), hhome]
      rw [keeper_of_taken hhome] at hkeeper
      cases hkeeper
      rw [← hhome, hlookup]
  | none => rw [entered_of_some ((entrant_strays_iff hkind).2 ⟨hhome, hkeeper⟩), if_pos rfl, hlookup]

/-- What the stage of a kind moves is a file, and it is there. -/
theorem lands (hentrant : entrant top kind.home disk (strays top kind disk) name = some source) :
    ∃ x c, mid.lookup (top ++ (kind.home ++ [name])) = some (.file x c) := by
  obtain ⟨-, hfind⟩ := entrant_eq_some_iff.1 hentrant
  obtain ⟨⟨x, c, hlookup⟩, hkind, -⟩ := mem_strays_iff.1 (List.mem_of_find?_eq_some hfind)
  obtain ⟨-, hkeeper⟩ := (entrant_strays_iff hkind).1 hentrant
  exact ⟨x, c, h.keeps hkind hkeeper hlookup⟩

/-- It is there only. -/
theorem left (hkind : AssetKind.of? name = some kind)
    (hfree : disk.lookup (top ++ (kind.home ++ [name])) = none)
    (hkeeper : keeper top disk kind name = some k) (hk : k ≠ kind.home) :
    mid.lookup (top ++ (k ++ [name])) = none := by
  rw [h.kind kind kind.mem_all _ name hkind,
    entered_of_some ((entrant_strays_iff hkind).2 ⟨hfree, hkeeper⟩), if_neg hk, if_pos rfl]

/-- What is somewhere was there before or was moved there. -/
theorem came (hlookup : mid.lookup (top ++ (k ++ [name])) = some e) :
    disk.lookup (top ++ (k ++ [name])) = some e
      ∨ ∃ kind source, AssetKind.of? name = some kind ∧ k = kind.home
        ∧ disk.lookup (top ++ (kind.home ++ [name])) = none ∧ keeper top disk kind name = some source
        ∧ disk.lookup (top ++ (source ++ [name])) = some e := by
  cases hkind : AssetKind.of? name with
  | none =>
      rw [h.other k name fun kind _ => by simp [hkind]] at hlookup
      exact .inl hlookup
  | some kind =>
      rw [h.kind kind kind.mem_all k name hkind] at hlookup
      cases hentrant : entrant top kind.home disk (strays top kind disk) name with
      | none =>
          rw [entered_of_none hentrant] at hlookup
          exact .inl hlookup
      | some source =>
          rw [entered_of_some hentrant] at hlookup
          split at hlookup
          next hk =>
            obtain ⟨hfree, hkeeper⟩ := (entrant_strays_iff hkind).1 hentrant
            exact .inr ⟨kind, source, rfl, hk, hfree, hkeeper, hlookup⟩
          next =>
            split at hlookup
            next => cases hlookup
            next => exact .inl hlookup

/-- What is left in the folder of script modules is what was there and is kept by no kind. -/
theorem modules_iff : mid.lookup (top ++ (modulesHome ++ [name])) = some (.file x c)
    ↔ disk.lookup (top ++ (modulesHome ++ [name])) = some (.file x c)
      ∧ ∀ kind, AssetKind.of? name = some kind → keeper top disk kind name ≠ some modulesHome := by
  refine ⟨fun hlookup => ?_, fun hlookup => h.stays hlookup.1 hlookup.2⟩
  rcases h.came hlookup with hbefore | ⟨kind, -, -, hhome, -⟩
  · refine ⟨hbefore, fun kind hkind hkeeper => ?_⟩
    have hne := modulesHome_ne_home kind
    cases hhome : disk.lookup (top ++ (kind.home ++ [name])) with
    | some e =>
        rw [keeper_of_taken hhome] at hkeeper
        exact hne (Option.some.inj hkeeper).symm
    | none =>
        rw [h.left hkind hhome hkeeper hne] at hlookup
        cases hlookup
  · exact absurd hhome (modulesHome_ne_home kind)

/-- Where a script module is left, its name is taken among the scripts if it is a script or if
something had the name there at first. -/
theorem script_taken_iff (hfile : mid.lookup (top ++ (modulesHome ++ [name])) = some (.file x c)) :
    (∃ e, mid.lookup (top ++ (AssetKind.script.home ++ [name])) = some e)
      ↔ AssetKind.of? name = some .script
        ∨ ∃ e, disk.lookup (top ++ (AssetKind.script.home ++ [name])) = some e := by
  obtain ⟨hbefore, -⟩ := h.modules_iff.1 hfile
  constructor
  · rintro ⟨e, hlookup⟩
    rcases h.came hlookup with hthere | ⟨kind, source, hkind, hhome, -⟩
    · exact .inr ⟨e, hthere⟩
    · rw [← AssetKind.home_inj hhome] at hkind
      exact .inl hkind
  · rintro (hkind | ⟨e, hthere⟩)
    · obtain ⟨j, e, hkeeper, hlookup, -⟩ := exists_keeper .script hbefore
      exact ⟨e, h.keeps hkind hkeeper hlookup⟩
    · by_cases hkind : AssetKind.of? name = some .script
      · exact ⟨e, h.keeps hkind (keeper_of_taken hthere) hthere⟩
      · refine ⟨e, h.stays hthere fun kind hkind' => keeper_ne_script ?_ hbefore⟩
        rintro rfl
        exact hkind hkind'

end Assorted

namespace Merged

/-- What is outside their folder stays. -/
theorem stays (h : Merged site top mid disk' moves) (hk : ¬ modulesHome <+: k)
    (hlookup : mid.lookup (top ++ (k ++ [name])) = some (.file x c)) :
    disk'.lookup (top ++ (k ++ [name])) = some (.file x c) := by
  cases h with
  | absent _ _ hdisk => rwa [hdisk]
  | gone _ hthere _ hgone =>
      rw [hgone, if_neg]
      · cases hentrant : entrant top AssetKind.script.home mid (modules top mid) name with
        | none => rwa [entered_of_none hentrant]
        | some source =>
            obtain ⟨rfl, hfree, -⟩ := entrant_modules_iff.1 hentrant
            rw [entered_of_some hentrant, if_neg, if_neg]
            · exact hlookup
            · rintro rfl
              exact hk (List.prefix_refl _)
            · rintro rfl
              rw [hfree] at hlookup
              cases hlookup
      · intro hprefix
        rcases List.prefix_concat_iff.1 hprefix with heq | hprefix
        · rw [← heq, hthere] at hlookup
          cases hlookup
        · exact hk hprefix

/-- What finds its name free among the scripts is there. -/
theorem merges (h : Merged site top mid disk' moves) (hfolder : mid.isFolder (modulesFolder site) = true)
    (hfree : mid.lookup (top ++ (AssetKind.script.home ++ [name])) = none)
    (hlookup : mid.lookup (top ++ (modulesHome ++ [name])) = some (.file x c)) :
    disk'.lookup (top ++ (AssetKind.script.home ++ [name])) = some (.file x c) := by
  cases h with
  | absent hnone _ _ =>
      rw [hfolder] at hnone
      cases hnone
  | gone _ _ _ hgone =>
      rw [hgone, if_neg (not_prefix_home .script [name]),
        entered_of_some (entrant_modules_iff.2 ⟨rfl, hfree, x, c, hlookup⟩), if_pos rfl, hlookup]

/-- What is somewhere was there before or was moved among the scripts. -/
theorem came (h : Merged site top mid disk' moves)
    (hlookup : disk'.lookup (top ++ (k ++ [name])) = some e) :
    mid.lookup (top ++ (k ++ [name])) = some e
      ∨ mid.isFolder (modulesFolder site) = true ∧ k = AssetKind.script.home
        ∧ mid.lookup (top ++ (AssetKind.script.home ++ [name])) = none
        ∧ mid.lookup (top ++ (modulesHome ++ [name])) = some e ∧ e.isFile := by
  cases h with
  | absent _ _ hdisk =>
      rw [hdisk] at hlookup
      exact .inl hlookup
  | gone hfolder _ _ hgone =>
      rw [hgone] at hlookup
      split at hlookup
      next => cases hlookup
      next =>
        cases hentrant : entrant top AssetKind.script.home mid (modules top mid) name with
        | none =>
            rw [entered_of_none hentrant] at hlookup
            exact .inl hlookup
        | some source =>
            obtain ⟨rfl, hfree, x, c, hfile⟩ := entrant_modules_iff.1 hentrant
            rw [entered_of_some hentrant] at hlookup
            split at hlookup
            next hk =>
              refine .inr ⟨hfolder, hk, hfree, hlookup, ?_⟩
              rw [hfile] at hlookup
              cases hlookup
              rfl
            next =>
              split at hlookup
              next => cases hlookup
              next => exact .inl hlookup

/-- Nothing is left of their folder. -/
theorem empties (h : Merged site top mid disk' moves) (hfolder : mid.isFolder (modulesFolder site) = true)
    (k : Key) : disk'.lookup (top ++ (modulesHome ++ k)) = none := by
  cases h with
  | absent hnone _ _ =>
      rw [hfolder] at hnone
      cases hnone
  | gone _ _ _ hgone =>
      obtain ⟨front, name, hk⟩ : ∃ front name, modulesHome ++ k = front ++ [name] := by
        obtain ⟨front, name, hk⟩ := List.eq_nil_or_concat' (modulesHome ++ k) |>.resolve_left (by simp [modulesHome])
        exact ⟨front, name, by simpa using hk⟩
      rw [hk, hgone, if_pos]
      rw [← hk]
      exact List.prefix_append modulesHome k

/-- Where nothing is and no script module goes, nothing comes. -/
theorem away (h : Merged site top mid disk' moves)
    (hlookup : mid.lookup (top ++ (k ++ [name])) = none)
    (hnot : k = AssetKind.script.home → ∀ x c, mid.lookup (top ++ (modulesHome ++ [name])) ≠ some (.file x c)) :
    disk'.lookup (top ++ (k ++ [name])) = none := by
  refine Option.eq_none_iff_forall_ne_some.2 fun e he => ?_
  rcases h.came he with hbefore | ⟨-, hk, -, hmodule, hfile⟩
  · rw [hlookup] at hbefore
    cases hbefore
  · cases e with
    | folder | link target => cases hfile
    | file x c => exact hnot hk x c hmodule

end Merged

-- ============================================================================ counts

/-- The files that are where nothing was before. -/
def arrivals (top : Key) (disk disk' : Disk) : List (Key × Text) :=
  (disk'.filesBelow top).filter fun file => disk.lookup (top ++ (file.1 ++ [file.2])) = none

/-- The files of a kind outside its folder that it does not keep. -/
def outdone (top : Key) (disk : Disk) (kind : AssetKind) : List (Key × Text) :=
  (strays top kind disk).filter fun file => keeper top disk kind file.2 ≠ some file.1

/-- The files in the folder of script modules that no kind keeps and whose names are taken
among the scripts, by one of their kind or by what stands there. -/
def turnedDown (top : Key) (disk : Disk) : List (Key × Text) :=
  (modules top disk).filter fun file =>
    (AssetKind.of? file.2).all (fun kind => keeper top disk kind file.2 ≠ some modulesHome)
      && (AssetKind.of? file.2 = some .script
        || (disk.lookup (top ++ (AssetKind.script.home ++ [file.2]))).isSome)

theorem moved_total_eq (all : List Moves) : (Moves.total all).moved = (all.map Moves.moved).sum := by
  induction all with
  | nil => rfl
  | cons moves all ih => rw [Moves.total_cons, List.map_cons, List.sum_cons, ← ih]; rfl

theorem skipped_total_eq (all : List Moves) : (Moves.total all).skipped = (all.map Moves.skipped).sum := by
  induction all with
  | nil => rfl
  | cons moves all ih => rw [Moves.total_cons, List.map_cons, List.sum_cons, ← ih]; rfl

/-- They came into the folder of a kind in its stage or among the scripts in the merge. -/
theorem mem_arrivals_iff (h : Assorted top AssetKind.all disk mid) (h' : Merged site top mid disk' moves) :
    (k, name) ∈ arrivals top disk disk'
      ↔ (∃ kind, (k, name) ∈ landings top kind.home disk (strays top kind disk))
        ∨ mid.isFolder (modulesFolder site) = true
          ∧ (k, name) ∈ landings top AssetKind.script.home mid (modules top mid) := by
  unfold arrivals
  rw [List.mem_filter, decide_eq_true_eq, Disk.mem_filesBelow_iff]
  simp only [mem_landings_iff, entrant_modules_iff]
  constructor
  · rintro ⟨⟨x, c, hlookup⟩, hfree⟩
    rcases h'.came hlookup with hmid | ⟨hfolder, hk, hnone, hmodule, -⟩
    · rcases h.came hmid with hbefore | ⟨kind, source, hkind, hk, hnone, hkeeper, -⟩
      · rw [hfree] at hbefore
        cases hbefore
      · exact .inl ⟨kind, hk, source, (entrant_strays_iff hkind).2 ⟨hnone, hkeeper⟩⟩
    · exact .inr ⟨hfolder, hk, modulesHome, rfl, hnone, x, c, hmodule⟩
  · rintro (⟨kind, rfl, source, hentrant⟩ | ⟨hfolder, rfl, source, -, hnone, x, c, hmodule⟩)
    · obtain ⟨x, c, hlookup⟩ := h.lands hentrant
      obtain ⟨hfree, -⟩ := entrant_eq_some_iff.1 hentrant
      exact ⟨⟨x, c, h'.stays (not_prefix_home_self kind) hlookup⟩, hfree⟩
    · refine ⟨⟨x, c, h'.merges hfolder hnone hmodule⟩, ?_⟩
      refine Option.eq_none_iff_forall_ne_some.2 fun e he => ?_
      obtain ⟨e', he'⟩ := (h.script_taken_iff hmodule).2 (.inr ⟨e, he⟩)
      rw [hnone] at he'
      cases he'

/-- No two files get to one place: kinds have folders of their own, and the merge moves nothing to
where a stage has moved something. -/
theorem nodup_landings_all (h : Assorted top AssetKind.all disk mid) :
    (AssetKind.all.flatMap (fun kind => landings top kind.home disk (strays top kind disk))
      ++ landings top AssetKind.script.home mid (modules top mid)).Nodup := by
  have hkinds : AssetKind.all.Nodup := by decide
  refine List.nodup_append.2 ⟨List.nodup_flatMap.2 ⟨fun kind _ => ?_, ?_⟩, ?_, ?_⟩
  · exact nodup_landings (Key.nodup_of_sorted (sorted_strays top kind disk))
  · refine hkinds.imp fun hne => ?_
    rintro ⟨k, name⟩ hmem hmem'
    obtain ⟨hk, -⟩ := mem_landings_iff.1 hmem
    obtain ⟨hk', -⟩ := mem_landings_iff.1 hmem'
    exact hne (AssetKind.home_inj (hk.symm.trans hk'))
  · exact nodup_landings (nodup_modules top mid)
  · rintro ⟨k, name⟩ hmem file hmem' rfl
    obtain ⟨kind, -, hmem⟩ := List.mem_flatMap.1 hmem
    obtain ⟨hk, source, hentrant⟩ := mem_landings_iff.1 hmem
    obtain ⟨rfl, source', hentrant'⟩ := mem_landings_iff.1 hmem'
    obtain ⟨-, hfree, -⟩ := entrant_modules_iff.1 hentrant'
    obtain ⟨x, c, hlookup⟩ := h.lands hentrant
    rw [hk, hlookup] at hfree
    cases hfree

/-- As many files are counted as moved as are where nothing was. -/
theorem length_arrivals (h : Assorted top AssetKind.all disk mid) (h' : Merged site top mid disk' moves) :
    (arrivals top disk disk').length
      = (AssetKind.all.map fun kind => (tally top kind.home disk (strays top kind disk)).moved).sum
        + moves.moved := by
  obtain ⟨merged, hlength, hsublist, hmem⟩ : ∃ merged : List (Key × Text), merged.length = moves.moved
      ∧ merged.Sublist (landings top AssetKind.script.home mid (modules top mid))
      ∧ ∀ file, file ∈ merged ↔ mid.isFolder (modulesFolder site) = true
        ∧ file ∈ landings top AssetKind.script.home mid (modules top mid) := by
    cases h' with
    | absent hfolder hmoves _ => exact ⟨[], by rw [hmoves]; rfl, List.nil_sublist _, by simp [hfolder]⟩
    | gone hfolder _ hmoves _ =>
        exact ⟨_, by rw [hmoves, length_landings], List.Sublist.refl _, by simp [hfolder]⟩
  have hperm : (arrivals top disk disk').Perm
      (AssetKind.all.flatMap (fun kind => landings top kind.home disk (strays top kind disk)) ++ merged) := by
    refine (List.perm_ext_iff_of_nodup ?_ ((nodup_landings_all h).sublist ?_)).2 ?_
    · exact (Key.nodup_of_sorted (Disk.sorted_filesBelow disk' top)).filter _
    · exact hsublist.append_left _
    · rintro ⟨k, name⟩
      rw [mem_arrivals_iff h h', List.mem_append, List.mem_flatMap, hmem]
      refine or_congr_left (exists_congr fun kind => ?_)
      exact (and_iff_right kind.mem_all).symm
  rw [hperm.length_eq, List.length_append, List.length_flatMap, hlength]
  simp only [length_landings]

/-- As many files of a kind are counted as skipped as the kind does not keep. -/
theorem skipped_eq_outdone (kind : AssetKind) :
    (tally top kind.home disk (strays top kind disk)).skipped = (outdone top disk kind).length := by
  rw [outdone, ← List.countP_eq_length_filter]
  refine List.countP_congr ?_
  rintro ⟨k, name⟩ hmem
  obtain ⟨-, hkind, hk⟩ := mem_strays_iff.1 hmem
  have henters : enters top kind.home disk (strays top kind disk) (k, name) = true
      ↔ keeper top disk kind name = some k := by
    unfold enters
    rw [decide_eq_true_eq, entrant_strays_iff hkind, and_iff_right_iff_imp]
    intro hkeeper
    refine Option.eq_none_iff_forall_ne_some.2 fun e he => hk ?_
    rw [keeper_of_taken he] at hkeeper
    exact (Option.some.inj hkeeper).symm
  rw [Bool.not_eq_true', ← Bool.not_eq_true, henters, decide_eq_true_eq]

/-- As many script modules are counted as skipped as are left by the kinds and find their names
taken. -/
theorem skipped_eq_turnedDown (h : Assorted top AssetKind.all disk mid) :
    (tally top AssetKind.script.home mid (modules top mid)).skipped = (turnedDown top disk).length := by
  show (modules top mid).countP _ = _
  rw [List.countP_eq_length_filter]
  refine List.Perm.length_eq ((List.perm_ext_iff_of_nodup ((nodup_modules top mid).filter _)
    ((nodup_modules top disk).filter _)).2 ?_)
  rintro ⟨k, name⟩
  simp only [List.mem_filter, mem_modules_iff, and_assoc, Bool.and_eq_true, Bool.or_eq_true,
    Option.all_eq_true, decide_eq_true_eq, Option.isSome_iff_exists, Bool.not_eq_true']
  refine and_congr_right fun hk => ?_
  subst hk
  constructor
  · rintro ⟨⟨x, c, hmid⟩, hskipped⟩
    obtain ⟨hbefore, hnot⟩ := h.modules_iff.1 hmid
    refine ⟨⟨x, c, hbefore⟩, hnot, (h.script_taken_iff hmid).1 (Option.ne_none_iff_exists'.1 ?_)⟩
    intro hfree
    have henters : enters top AssetKind.script.home mid (modules top mid) (modulesHome, name) = true :=
      decide_eq_true (entrant_modules_iff.2 ⟨rfl, hfree, x, c, hmid⟩)
    rw [henters] at hskipped
    cases hskipped
  · rintro ⟨⟨x, c, hbefore⟩, hnot, htaken⟩
    have hmid := h.modules_iff.2 ⟨hbefore, hnot⟩
    obtain ⟨e, he⟩ := (h.script_taken_iff hmid).2 htaken
    refine ⟨⟨x, c, hmid⟩, decide_eq_false fun hentrant => ?_⟩
    rw [entrant_of_taken he] at hentrant
    cases hentrant

-- ============================================================================ the run

/-- What moving the assets of an export comes to: of the files of one name the first one wins. -/
structure FirstWins (site : Text) (top : Key) (disk disk' : Disk) (moves : Moves) : Prop where
  /-- What a kind keeps under the name of one of its files is in the folder of the kind. -/
  kept : ∀ kind k name x c, AssetKind.of? name = some kind →
    disk.lookup (top ++ (k ++ [name])) = some (.file x c) →
    disk.lookup (top ++ (kind.home ++ [name])) ≠ some .folder →
    ∃ j y d, keeper top disk kind name = some j ∧ disk.lookup (top ++ (j ++ [name])) = some (.file y d)
      ∧ disk'.lookup (top ++ (kind.home ++ [name])) = some (.file y d)
  /-- All other files outside the folder of script modules stay, those of no kind among them. -/
  stays : ∀ k name x c, ¬ modulesHome <+: k →
    (∀ kind, AssetKind.of? name = some kind → keeper top disk kind name ≠ some k) →
    disk.lookup (top ++ (k ++ [name])) = some (.file x c) →
    disk'.lookup (top ++ (k ++ [name])) = some (.file x c)
  /-- The folder of script modules is not there, and if it was there nothing of it is. -/
  gone : disk'.isFolder (modulesFolder site) = false
    ∧ (disk.isFolder (modulesFolder site) = true → ∀ k, disk'.lookup (top ++ (modulesHome ++ k)) = none)
  /-- Each file that is where nothing was has left another place, that of what its kind keeps or,
  if no kind keeps it, the folder of script modules. -/
  left : ∀ k name, (k, name) ∈ arrivals top disk disk' →
    ∃ j, disk'.lookup (top ++ (k ++ [name])) = disk.lookup (top ++ (j ++ [name]))
      ∧ disk'.lookup (top ++ (j ++ [name])) = none
      ∧ ((∃ kind, AssetKind.of? name = some kind ∧ k = kind.home ∧ keeper top disk kind name = some j)
        ∨ k = AssetKind.script.home ∧ j = modulesHome
          ∧ ∀ kind, AssetKind.of? name = some kind → keeper top disk kind name ≠ some j)
  moved : moves.moved = (arrivals top disk disk').length
  /-- Names are found taken by what kinds do not keep and, once more, among the scripts. -/
  skipped : moves.skipped = (AssetKind.all.map fun kind => (outdone top disk kind).length).sum
    + if disk.isFolder (modulesFolder site) = true then (turnedDown top disk).length else 0

/-- What a kind kept has left the place where it was, and the merge puts nothing there. -/
theorem left_of_kept (h : Assorted top AssetKind.all disk mid) (h' : Merged site top mid disk' moves)
    (hkind : AssetKind.of? name = some kind) (hfree : disk.lookup (top ++ (kind.home ++ [name])) = none)
    (hkeeper : keeper top disk kind name = some j) (hlookup : disk.lookup (top ++ (j ++ [name])) = some e) :
    disk'.lookup (top ++ (j ++ [name])) = none := by
  have hj : j ≠ kind.home := by
    rintro rfl
    rw [hfree] at hlookup
    cases hlookup
  refine h'.away (h.left hkind hfree hkeeper hj) fun hscript x c hmodule => ?_
  have hne : kind ≠ .script := by
    rintro rfl
    exact hj hscript
  exact keeper_ne_script hne (h.modules_iff.1 hmodule).1 (hscript ▸ hkeeper)

/-- What is where nothing was has left the place where it was. -/
theorem left_of_arrival (h : Assorted top AssetKind.all disk mid) (h' : Merged site top mid disk' moves)
    (hmem : (k, name) ∈ arrivals top disk disk') :
    ∃ j, disk'.lookup (top ++ (k ++ [name])) = disk.lookup (top ++ (j ++ [name]))
      ∧ disk'.lookup (top ++ (j ++ [name])) = none
      ∧ ((∃ kind, AssetKind.of? name = some kind ∧ k = kind.home ∧ keeper top disk kind name = some j)
        ∨ k = AssetKind.script.home ∧ j = modulesHome
          ∧ ∀ kind, AssetKind.of? name = some kind → keeper top disk kind name ≠ some j) := by
  obtain ⟨hmem, hfree⟩ := List.mem_filter.1 hmem
  rw [decide_eq_true_eq] at hfree
  obtain ⟨x, c, hlookup⟩ := Disk.mem_filesBelow_iff.1 hmem
  rcases h'.came hlookup with hmid | ⟨hthere, hk, -, hmodule, -⟩
  · rcases h.came hmid with hbefore | ⟨kind, j, hkind, hk, hnothing, hkeeper, hj⟩
    · rw [hfree] at hbefore
      cases hbefore
    · refine ⟨j, by rw [hlookup, hj], ?_, .inl ⟨kind, hkind, hk, hkeeper⟩⟩
      exact left_of_kept h h' hkind hnothing hkeeper hj
  · obtain ⟨hbefore, hnot⟩ := h.modules_iff.1 hmodule
    exact ⟨modulesHome, by rw [hlookup, hbefore], h'.empties hthere [name], .inr ⟨hk, rfl, hnot⟩⟩

/-- The stages do not touch the folder of script modules itself. -/
theorem isFolder_modules (tree : Tree site top disk) (treeMid : Tree site top mid)
    (h : Assorted top AssetKind.all disk mid) :
    mid.isFolder (modulesFolder site) = disk.isFolder (modulesFolder site) := by
  have hne : modulesHome ≠ [] := by simp [modulesHome]
  have hlookup : mid.lookup (top ++ modulesHome) = disk.lookup (top ++ modulesHome) := by
    refine h.other ["assets".toList] "controllers".toList fun kind _ => ?_
    cases kind <;> decide
  rw [Bool.eq_iff_iff, modulesFolder_eq, treeMid.isFolder_iff hne isPlain_modulesHome,
    tree.isFolder_iff hne isPlain_modulesHome, hlookup]

/-- In every tree the first of several files of one name wins. -/
theorem reorganize_first_wins (tree : Tree site top disk)
    (h : (reorganize site).on disk = (.ok moves, disk')) : FirstWins site top disk disk' moves := by
  obtain ⟨-, -, -, hnone, -⟩ := reorganize_eq_ok tree h
  obtain ⟨all, mid, rest, hall, hfold, rfl⟩ := reorganize_parts h
  obtain ⟨treeMid, hassorted, rfl⟩ := gatherAll_entered tree (by decide) hall
  have hmerged := foldModules_merged treeMid hfold
  have hfolder := isFolder_modules tree treeMid hassorted
  constructor
  case kept =>
    intro kind k name x c hkind hfile hplace
    obtain ⟨j, e, hkeeper, hlookup, hj⟩ := exists_keeper kind hfile
    obtain ⟨y, d, rfl⟩ : ∃ y d, e = .file y d := by
      rcases tree.folder_or_file hlookup with rfl | hfile
      · rcases hj with rfl | hfile
        · exact absurd hlookup hplace
        · cases hfile
      · exact hfile
    exact ⟨j, y, d, hkeeper, hlookup, hmerged.stays (not_prefix_home_self kind) (hassorted.keeps hkind hkeeper hlookup)⟩
  case stays =>
    intro k name x c hk hnot hlookup
    exact hmerged.stays hk (hassorted.stays hlookup hnot)
  case gone =>
    refine ⟨hnone, fun hthere => ?_⟩
    rw [← hfolder] at hthere
    exact hmerged.empties hthere
  case left =>
    intro k name hmem
    exact left_of_arrival hassorted hmerged hmem
  case moved =>
    rw [length_arrivals hassorted hmerged]
    show (Moves.total _).moved + rest.moved = _
    rw [moved_total_eq, List.map_map]
    rfl
  case skipped =>
    show (Moves.total _).skipped + rest.skipped = _
    rw [skipped_total_eq, List.map_map, ← hfolder]
    congr 1
    · exact congrArg List.sum (List.map_congr_left fun kind _ => skipped_eq_outdone kind)
    · cases hmerged with
      | absent habsent hmoves _ => rw [habsent, hmoves, if_neg (by simp)]; rfl
      | gone hthere _ hmoves _ => rw [hthere, hmoves, if_pos rfl, skipped_eq_turnedDown hassorted]

/-- Of two scripts of one name the one that a walk meets first is moved; the other one finds
the name taken twice. -/
theorem reorganize_first_wins_prepared :
    FirstWins "build" ["build".toList] preparedScripts ((reorganize "build").on preparedScripts).2 ⟨1, 2⟩
      ∧ keeper ["build".toList] preparedScripts .script "app.js" = some []
      ∧ arrivals ["build".toList] preparedScripts ((reorganize "build").on preparedScripts).2
        = [(AssetKind.script.home, "app.js".toList)]
      ∧ outdone ["build".toList] preparedScripts .script = [(modulesHome, "app.js".toList)]
      ∧ turnedDown ["build".toList] preparedScripts = [(modulesHome, "app.js".toList)] :=
  ⟨reorganize_first_wins tree_preparedScripts reorganize_preparedScripts, by decide +kernel⟩

end SiteScaffold.Export

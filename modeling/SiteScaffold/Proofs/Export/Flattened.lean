/-
Script modules in nested folders and the references to them. The file gets among the scripts
under its name, and a reference to it is led by its name to the same folder, at every depth
and for every name (`modules_flatten`).

Of a file that is the only one of its name, its kind keeps that one (`reorganize_keeps_only`).
The folder of script modules goes only after the stages of all kinds, so nothing of the file
is in it any more.
-/
import SiteScaffold.Proofs.Export.Completed
import SiteScaffold.Proofs.Export.NestedModules

namespace SiteScaffold.Export

open Disk (Tree IsPath)
open Path (IsPlain under)

variable {disk disk' : Disk} {k top : Key} {site name : Text} {dirs : List Text} {moves : Moves}
  {kind : AssetKind} {x : Bool} {c : Content}

-- ======================================================================== the stages

/-- What moving all assets comes to: the stages of the kinds, then the merge of the script
modules. -/
theorem reorganize_stages (tree : Tree site top disk) (h : (reorganize site).on disk = (.ok moves, disk')) :
    ∃ mid rest, Assorted top AssetKind.all disk mid ∧ Merged site top mid disk' rest
      ∧ mid.isFolder (modulesFolder site) = disk.isFolder (modulesFolder site) := by
  obtain ⟨all, mid, rest, hall, hfold, rfl⟩ := reorganize_parts h
  obtain ⟨treeMid, hassorted, -⟩ := gatherAll_entered tree (by decide) hall
  exact ⟨mid, rest, hassorted, foldModules_merged treeMid hfold, isFolder_modules tree treeMid hassorted⟩

/-- A file that nothing else has the name of gets to the folder of its kind. -/
theorem reorganize_keeps_only (tree : Tree site top disk)
    (h : (reorganize site).on disk = (.ok moves, disk')) (hkind : AssetKind.of? name = some kind)
    (hfile : disk.lookup (top ++ (k ++ [name])) = some (.file x c))
    (honly : ∀ j e, disk.lookup (top ++ (j ++ [name])) = some e → j = k) :
    disk'.lookup (top ++ (kind.home ++ [name])) = some (.file x c) := by
  obtain ⟨mid, rest, hassorted, hmerged, -⟩ := reorganize_stages tree h
  obtain ⟨j, e, hkeeper, hlookup, -⟩ := exists_keeper kind hfile
  obtain rfl := honly j e hlookup
  exact hmerged.stays (not_prefix_home_self kind) (hassorted.keeps hkind hkeeper hfile)

/-- Nothing is left of the folder of script modules. -/
theorem reorganize_empties (tree : Tree site top disk) (h : (reorganize site).on disk = (.ok moves, disk'))
    (hfolder : disk.isFolder (modulesFolder site) = true) (k : Key) :
    disk'.lookup (top ++ (modulesHome ++ k)) = none := by
  obtain ⟨mid, rest, -, hmerged, hmid⟩ := reorganize_stages tree h
  exact hmerged.empties (hmid.trans hfolder) k

/-- Where a file is in the folder of script modules, the folder is found if the system takes
the path of the file. -/
theorem isFolder_modules_of_file (tree : Tree site top disk)
    (hfile : disk.lookup (top ++ (modulesHome ++ dirs ++ [name])) = some (.file x c))
    (hpath : IsPath (under site (modulesHome ++ dirs ++ [name]))) :
    disk.isFolder (modulesFolder site) = true := by
  have hne : modulesHome ≠ [] := by simp [modulesHome]
  have hnames := tree.isPlain hfile
  rw [List.append_assoc] at hfile hpath hnames
  have hthere : disk.lookup (top ++ modulesHome) = some .folder := by
    rw [← List.append_assoc] at hfile
    exact tree.closed.above hfile (by simp)
  rw [modulesFolder_eq, tree.isFolder_iff hne isPlain_modulesHome]
  exact ⟨hpath.of_prefix (Path.under_prefix hne hnames) (Path.under_ne_nil hne isPlain_modulesHome), hthere⟩

-- ======================================================================== all depths

theorem of?_script (hplain : IsPlain name) (hname : Html.IsFileName ["js".toList] name) :
    AssetKind.of? name = some .script := by
  obtain ⟨stem, x, rfl, hne, -, hx⟩ := hname
  obtain rfl := List.mem_singleton.1 hx
  rw [AssetKind.of?_stem hplain (by decide), if_neg (by simpa using hne)]
  decide

/-- A script module in nested folders and the references to it end in the same place. In a page,
a value that climbs any number of steps and goes down to it through the folders is led to its
name among the scripts, whatever stands around its quotation marks. In an export whose folders
are made, the file is there with its content after the assets were moved, if nothing else has
its name; and they are moved, and nothing is left of the folder of script modules, if the
system takes the paths. -/
theorem modules_flatten (hdirs : ∀ d ∈ dirs, Html.IsSegment d) (hname : Html.IsFileName ["js".toList] name) :
    (∀ port steps q q' front back, Pattern.isQuote q → Pattern.isQuote q' →
      Html.rewrite port (front ++ q :: (Html.climb steps
          ++ ("assets/controllers/".toList ++ Html.descend dirs ++ name) ++ q' :: back))
        = Html.rewrite port front ++ q :: (Html.climb steps ++ ("assets/js/".toList ++ name)
          ++ q' :: Html.rewrite port back))
    ∧ ∀ site top disk made x c, Tree site top disk → (prepareFolders site).on disk = (.ok (), made) →
      made.lookup (top ++ (modulesHome ++ dirs ++ [name])) = some (.file x c) →
      (∀ k e, made.lookup (top ++ (k ++ [name])) = some e → k = modulesHome ++ dirs) →
      (∀ moves disk', (reorganize site).on made = (.ok moves, disk') →
        disk'.lookup (top ++ (AssetKind.script.home ++ [name])) = some (.file x c)
          ∧ disk'.isFolder (modulesFolder site) = false)
      ∧ (Addressable site top made → ∃ moves disk', (reorganize site).on made = (.ok moves, disk')
        ∧ ∀ k, disk'.lookup (top ++ (modulesHome ++ k)) = none) := by
  refine ⟨fun port steps q q' front back hq hq' => ?_, ?_⟩
  · exact Html.rewrite_quoted_module port hdirs hname hq hq' front back
  intro site top disk made x c tree hprepare hfile honly
  obtain ⟨treeMade, -, -⟩ := prepareFolders_eq_ok tree hprepare
  have hplain : IsPlain name := treeMade.isPlain hfile name (by simp)
  refine ⟨fun moves disk' hrun => ?_, fun haddressable => ?_⟩
  · obtain ⟨-, -, -, hgone, -⟩ := reorganize_eq_ok treeMade hrun
    exact ⟨reorganize_keeps_only treeMade hrun (of?_script hplain hname) hfile honly, hgone⟩
  · obtain ⟨moves, disk', hrun⟩ := (ready_of_prepared tree hprepare haddressable).reorganize
    have hfolder := isFolder_modules_of_file treeMade hfile (haddressable.path _ name x c hfile)
    exact ⟨moves, disk', hrun, reorganize_empties treeMade hrun hfolder⟩

/-- A small export with a script in a folder of script modules. -/
def nestedScript : Disk :=
  ((((Disk.blank.insert ["build".toList] .folder)
    |>.insert ["build".toList, "assets".toList] .folder)
    |>.insert ["build".toList, "assets".toList, "controllers".toList] .folder)
    |>.insert ["build".toList, "assets".toList, "controllers".toList, "lib".toList] .folder)
    |>.insert ["build".toList, "assets".toList, "controllers".toList, "lib".toList, "tab.view.js".toList]
      (.file false (.text "export {}"))

/-- The small export with the folders of all kinds. -/
def preparedNested : Disk := ((prepareFolders "build").on nestedScript).2

theorem modules_flatten_nested :
    Html.rewrite 3000 "<script src=\"../assets/controllers/lib/tab.view.js\">"
        = "<script src=\"../assets/js/tab.view.js\">".toList
      ∧ ∃ moves disk', (reorganize "build").on preparedNested = (.ok moves, disk')
        ∧ disk'.lookup ["build".toList, "assets".toList, "js".toList, "tab.view.js".toList]
          = some (.file false (.text "export {}"))
        ∧ disk'.lookup ["build".toList, "assets".toList, "controllers".toList] = none := by
  have hdirs : ∀ d ∈ ["lib".toList], Html.IsSegment d :=
    List.forall_mem_singleton.2 ⟨by decide, by decide⟩
  have hname : Html.IsFileName ["js".toList] "tab.view.js".toList :=
    ⟨"tab.view", "js", by decide, by decide, by decide, by decide⟩
  have hclosed : nestedScript.Closed := Disk.closed_of_forall_mem (by decide +kernel)
  have hplain : Disk.Plain nestedScript [] := Disk.plain_of_forall_mem (by decide +kernel) []
  have tree : Tree "build" ["build".toList] nestedScript :=
    (Disk.tree_of_plain hclosed hplain).sub (k := ["build".toList]) (by decide +kernel) (by decide +kernel)
  have hprepare : (prepareFolders "build").on nestedScript = (.ok (), preparedNested) :=
    Edit.on_of_fst (by decide +kernel)
  have hfile : preparedNested.lookup (["build".toList] ++ (modulesHome ++ ["lib".toList] ++ ["tab.view.js".toList]))
      = some (.file false (.text "export {}")) := by decide +kernel
  -- one entry is a file, and no other one has its name
  have hentries : ∀ entry ∈ preparedNested.entries,
      entry.1.getLast? = some "tab.view.js".toList ∨ entry.2.isFile → entry.1 = ["build".toList] ++ (modulesHome ++ ["lib".toList] ++ ["tab.view.js".toList]) := by
    decide +kernel
  have hplace : ∀ (k : Key) (n : Text) (e : Entry),
      preparedNested.lookup (["build".toList] ++ (k ++ [n])) = some e →
      n = "tab.view.js".toList ∨ e.isFile → k = modulesHome ++ ["lib".toList] ∧ n = "tab.view.js".toList := by
    intro k n e hlookup hor
    rw [Disk.lookup, if_neg (by simp)] at hlookup
    have hlast : (["build".toList] ++ (k ++ [n])).getLast? = some n := by
      rw [← List.append_assoc, List.getLast?_concat]
    have hkeys := hentries _ (Disk.mem_of_lookup hlookup) (hor.imp_left fun hn => by rw [hlast, hn])
    obtain ⟨hk, hn⟩ := List.append_inj' (List.append_cancel_left hkeys) rfl
    exact ⟨hk, (List.cons_eq_cons.1 hn).1⟩
  have haddressable : Addressable "build" ["build".toList] preparedNested := by
    refine ⟨⟨by decide, by decide, by decide⟩, fun k n x c hlookup => ?_, fun kind k n x c _ hlookup => ?_⟩
    · obtain ⟨rfl, rfl⟩ := hplace k n _ hlookup (.inr rfl)
      exact ⟨by decide +kernel, by decide +kernel, by decide +kernel⟩
    · obtain ⟨rfl, rfl⟩ := hplace k n _ hlookup (.inr rfl)
      cases kind <;> exact ⟨by decide +kernel, by decide +kernel, by decide +kernel⟩
  obtain ⟨hpage, hexport⟩ := modules_flatten hdirs hname
  have hquoted := hpage 3000 1 '"' '"' "<script src=" ">" (by decide) (by decide)
  obtain ⟨hends, hcompletes⟩ := hexport _ _ _ _ _ _ tree hprepare hfile fun k e hlookup =>
    (hplace k _ e hlookup (.inl rfl)).1
  obtain ⟨moves, disk', hrun, hgone⟩ := hcompletes haddressable
  refine ⟨?_, moves, disk', hrun, (hends moves disk' hrun).1, hgone []⟩
  have hopens : Html.rewrite 3000 "<script src=" = "<script src=".toList := by decide +kernel
  have hcloses : Html.rewrite 3000 ">" = ">".toList := by decide +kernel
  rw [hopens, hcloses] at hquoted
  exact hquoted

end SiteScaffold.Export

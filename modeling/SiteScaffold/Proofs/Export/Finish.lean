/-
Finishing an export as a whole. If it goes through, the disk afterwards has the entries that
the moves left, and every page and every sheet among the stylesheets holds the rewritten text
of the file that the moves left there (`Finished`).

Three things follow. A second run finds nothing to do (`finish_again`): all kinds are gathered,
and each text is as the rules would write it, if the pages were tidy. The references in
stylesheets lead to what they named (`finish_leads_sheets`): a token is led to the folder of a
kind just if its last segment names a file of the kind, and every file of that name was
gathered there. And a page leads to the assets that it named right below the folder of
assets (`finish_leads_pages`); what it names elsewhere it may seek in vain afterwards
(`finish_loses_image`).
-/
import SiteScaffold.Proofs.Export.Cleanup
import SiteScaffold.Proofs.Export.Css
import SiteScaffold.Proofs.Export.Reorganize
import SiteScaffold.Proofs.Export.Reworded
import SiteScaffold.Proofs.Export.Values

namespace SiteScaffold.Export

open Disk (Tree IsPath Furnished SameOutline)
open Path (IsPlain under)

variable {disk disk' moved made : Disk} {j k top : Key} {site name path t : Text} {kind : AssetKind} {c : Content}
  {x : Bool} {e : Entry} {port : Nat} {report : ExportReport}

/-- No name is that of a page and of a stylesheet. -/
theorem not_page_and_sheet (hpage : Text.endsWith name ".html") (hsheet : Text.endsWith name ".css") :
    False := by
  have hlast : ∀ (tail : Text) (c : Char), Text.endsWith name (tail ++ [c]) → name.getLast? = some c := by
    intro tail c h
    obtain ⟨front, rfl⟩ := Text.endsWith_iff.1 h
    rw [← List.append_assoc, List.getLast?_concat]
  have hl := hlast ".htm" 'l' hpage
  have hs := hlast ".cs" 's' hsheet
  rw [hl] at hs
  cases hs

/-- A folder stays one when only the contents of files change. -/
theorem isFolder_congr (tree : Tree site top disk) (tree' : Tree site top disk') (hk : k ≠ [])
    (hnames : ∀ n ∈ k, IsPlain n)
    (hlookup : disk.lookup (top ++ k) = some .folder → disk'.lookup (top ++ k) = some .folder)
    (h : disk.isFolder (under site k) = true) : disk'.isFolder (under site k) = true := by
  obtain ⟨hpath, hfolder⟩ := (tree.isFolder_iff hk hnames).1 h
  exact (tree'.isFolder_iff hk hnames).2 ⟨hpath, hlookup hfolder⟩

/-- What finishing an export comes to, with the disks after the folders were made and after
the moves. -/
structure Finished (site : Text) (top : Key) (port : Nat) (disk made moved disk' : Disk) : Prop where
  path : IsPath site
  tree : Tree site top disk'
  furnished : Furnished (IsHome top) disk made
  arranged : Arranged top made moved
  outline : SameOutline moved disk'
  folders : ∀ kind : AssetKind, disk'.isFolder (kind.destination site) = true
  gathered : ∀ kind, Gathered site top kind disk'
  gone : disk'.isFolder (modulesFolder site) = false
  pages : ∀ k name x c, moved.lookup (top ++ (k ++ [name])) = some (.file x c) →
    Text.endsWith name ".html" → IsPath (under site (k ++ [name])) ∧ ∃ t, c = .text t
      ∧ disk'.lookup (top ++ (k ++ [name])) = some (.file x (.text (Html.clean (Html.rewrite port t))))
  sheets : ∀ k name x c,
    moved.lookup (top ++ AssetKind.stylesheet.home ++ (k ++ [name])) = some (.file x c) →
    Text.endsWith name ".css" →
    IsPath (under (AssetKind.stylesheet.destination site) (k ++ [name])) ∧ ∃ t, c = .text t
      ∧ disk'.lookup (top ++ AssetKind.stylesheet.home ++ (k ++ [name])) = some (.file x (.text (Css.rewrite t)))
  others : ∀ k name, ¬ Text.endsWith name ".html" → ¬ Text.endsWith name ".css" →
    disk'.lookup (top ++ (k ++ [name])) = moved.lookup (top ++ (k ++ [name]))

theorem Gathered.sameOutline (tree : Tree site top disk) (tree' : Tree site top disk')
    (houtline : SameOutline disk disk') (h : Gathered site top kind disk) :
    Gathered site top kind disk' := by
  intro k name x c hlookup hkind hk
  obtain ⟨c', hbefore⟩ := houtline.symm.file hlookup
  have hnames := isPlain_home_concat (tree'.isPlain hlookup name (by simp)) kind
  obtain ⟨hpath, e, he⟩ := (tree.holds_iff (by simp) hnames).1 (h k name x c' hbefore hkind hk)
  obtain ⟨e', he', -⟩ := houtline.entry he
  exact (tree'.holds_iff (by simp) hnames).2 ⟨hpath, e', he'⟩

theorem finish_eq_ok (tree : Tree site top disk)
    (h : (finish site port).on disk = (.ok report, disk')) :
    ∃ made moved, Finished site top port disk made moved disk' := by
  obtain ⟨⟨⟩, made, hprepare, h₁⟩ := Edit.on_bind_eq_ok.1 h
  obtain ⟨moves, moved, hmoves, h₂⟩ := Edit.on_bind_eq_ok.1 h₁
  obtain ⟨pages, disk₁, hpages, h₃⟩ := Edit.on_bind_eq_ok.1 h₂
  obtain ⟨sheets, disk₂, hsheets, h₄⟩ := Edit.on_bind_eq_ok.1 h₃
  obtain ⟨cleaned, disk₃, hclean, h₅⟩ := Edit.on_bind_eq_ok.1 h₄
  obtain rfl : disk₃ = disk' := by
    cases h₅
    rfl
  obtain ⟨tree₁, hfurnished, hfolders⟩ := prepareFolders_eq_ok tree hprepare
  obtain ⟨tree₂, harranged, hgathered, hgone, hpath⟩ := reorganize_eq_ok tree₁ hmoves
  obtain ⟨tree₃, hpaged, hreadable⟩ := rewriteFiles_eq_ok tree₂ hpath (by decide) hpages
  have hhome : ∀ kind : AssetKind, kind.home ≠ [] := fun kind => by simp [AssetKind.home]
  have hfolders₃ : ∀ kind : AssetKind, disk₁.isFolder (kind.destination site) = true := by
    intro kind
    have hbefore := hfolders kind
    rw [AssetKind.destination_eq] at hbefore ⊢
    refine isFolder_congr tree₁ tree₃ (hhome kind) kind.isPlain_home (fun hfolder => ?_) hbefore
    refine hpaged.sameOutline.folder (harranged.kept _ ?_ hfolder)
    have hnot := not_prefix_home kind []
    rwa [List.append_nil] at hnot
  -- the sheets are a tree of their own
  obtain ⟨hpath', hfolder⟩ := (tree₃.isFolder_iff (hhome .stylesheet) AssetKind.stylesheet.isPlain_home).1
    (by rw [← AssetKind.destination_eq]; exact hfolders₃ .stylesheet)
  unfold rewriteSheets at hsheets
  rw [AssetKind.destination_eq] at hsheets
  obtain ⟨-, hsheeted, hreadable'⟩ := rewriteFiles_eq_ok (tree₃.sub (hhome .stylesheet) hfolder) hpath'
    (by decide) hsheets
  have tree₄ : Tree site top disk₂ := tree₃.sameOutline hsheeted.agreeAround hsheeted.sameOutline
  obtain ⟨tree₅, hcleaned, -⟩ := rewriteFiles_eq_ok tree₄ hpath (by decide) hclean
  have houtline : SameOutline disk₁ disk₃ := hsheeted.sameOutline.trans hcleaned.sameOutline
  have hpage : ∀ k name, Text.endsWith name ".html" →
      disk₂.lookup (top ++ (k ++ [name])) = disk₁.lookup (top ++ (k ++ [name])) := fun k name hpage =>
    hsheeted.other (not_page_and_sheet hpage) top k
  have hsheet : ∀ {disk disk' : Disk} {rewrite : Text → Text} (k : Key) (name : Text),
      Reworded top ".html" rewrite disk disk' → Text.endsWith name ".css" →
      disk'.lookup (top ++ AssetKind.stylesheet.home ++ (k ++ [name]))
        = disk.lookup (top ++ AssetKind.stylesheet.home ++ (k ++ [name])) :=
    fun k name hreworded hsheet => hreworded.other (fun hpage => not_page_and_sheet hpage hsheet) _ k
  refine ⟨made, moved, hpath, tree₅, hfurnished, harranged, hpaged.sameOutline.trans houtline,
    fun kind => ?_, fun kind => (hgathered kind).sameOutline tree₂ tree₅ (hpaged.sameOutline.trans houtline),
    ?_, fun k name x c hfile hends => ?_, fun k name x c hfile hends => ?_, fun k name hpage hsheet => ?_⟩
  · have hbefore := hfolders₃ kind
    rw [AssetKind.destination_eq] at hbefore ⊢
    exact isFolder_congr tree₃ tree₅ (hhome kind) kind.isPlain_home (fun hfolder => houtline.folder hfolder) hbefore
  · rw [modulesFolder_eq] at hgone ⊢
    rw [Bool.eq_false_iff] at hgone ⊢
    exact fun hstill => hgone (isFolder_congr tree₅ tree₂ (by simp [modulesHome]) isPlain_modulesHome
      (fun hfolder => (hpaged.sameOutline.trans houtline).symm.folder hfolder) hstill)
  · obtain ⟨hispath, t, rfl⟩ := hreadable k name x c hfile hends
    refine ⟨hispath, t, rfl, ?_⟩
    rw [hcleaned.inside k name hends, hpage k name hends, hpaged.inside k name hends, hfile]
    rfl
  · rw [← hsheet k name hpaged hends] at hfile
    obtain ⟨hispath, t, rfl⟩ := hreadable' k name x c hfile hends
    rw [← AssetKind.destination_eq] at hispath
    refine ⟨hispath, t, rfl, ?_⟩
    rw [hsheet k name hcleaned hends, hsheeted.inside k name hends, hfile]
    rfl
  · rw [hcleaned.other hpage top k, hsheeted.other hsheet top k, hpaged.other hpage top k]

-- ========================================================================= once more

namespace Finished

/-- Every file comes from one with its name and content. -/
theorem origin (h : Finished site top port disk made moved disk')
    (hfile : moved.lookup (top ++ (k ++ [name])) = some (.file x c)) :
    ∃ j, disk.lookup (top ++ (j ++ [name])) = some (.file x c) := by
  have hmade : ∃ j, made.lookup (top ++ (j ++ [name])) = some (.file x c) := by
    rcases h.arranged.file k name x c hfile with hbefore | ⟨⟨j, hbefore, -⟩, -⟩
    · exact ⟨k, hbefore⟩
    · exact ⟨j, hbefore⟩
  obtain ⟨j, hj⟩ := hmade
  rcases h.furnished.new _ _ hj with hbefore | ⟨hfolder, -⟩
  · exact ⟨j, hbefore⟩
  · cases hfolder

/-- A page is one that the rules for pages leave alone, if it was tidy. -/
theorem page (h : Finished site top port disk made moved disk')
    (htidy : ∀ k name x t, disk.lookup (top ++ (k ++ [name])) = some (.file x (.text t)) →
      Text.endsWith name ".html" → Html.Tidy t)
    (hfile : disk'.lookup (top ++ (k ++ [name])) = some (.file x c)) (hends : Text.endsWith name ".html") :
    IsPath (under site (k ++ [name])) ∧ ∃ t, c = .text t ∧ Html.rewrite port t = t ∧ Html.clean t = t := by
  obtain ⟨c', hbefore⟩ := h.outline.symm.file hfile
  obtain ⟨hpath, t, rfl, hnow⟩ := h.pages k name x c' hbefore hends
  rw [hnow] at hfile
  cases hfile
  obtain ⟨j, horigin⟩ := h.origin hbefore
  obtain ⟨hrewrite, hclean⟩ := Html.finished_of_tidy port (htidy j name x t horigin hends)
  exact ⟨hpath, _, rfl, hrewrite, hclean⟩

/-- A stylesheet is one that the rule for stylesheets leaves alone. -/
theorem sheet (h : Finished site top port disk made moved disk')
    (hfile : disk'.lookup (top ++ AssetKind.stylesheet.home ++ (k ++ [name])) = some (.file x c))
    (hends : Text.endsWith name ".css") :
    IsPath (under (AssetKind.stylesheet.destination site) (k ++ [name]))
      ∧ ∃ t, c = .text t ∧ Css.rewrite t = t := by
  obtain ⟨c', hbefore⟩ := h.outline.symm.file hfile
  obtain ⟨hpath, t, rfl, hnow⟩ := h.sheets k name x c' hbefore hends
  rw [hnow] at hfile
  cases hfile
  exact ⟨hpath, _, rfl, Css.rewrite_twice t⟩

end Finished

/-- A second run on an export of tidy pages moves, rewrites and cleans nothing, and leaves
the disk as it is. -/
theorem finish_again (tree : Tree site top disk)
    (htidy : ∀ k name x t, disk.lookup (top ++ (k ++ [name])) = some (.file x (.text t)) →
      Text.endsWith name ".html" → Html.Tidy t)
    (h : (finish site port).on disk = (.ok report, disk')) :
    ∃ skipped, (finish site port).on disk' = (.ok ⟨⟨0, skipped⟩, 0, 0, 0⟩, disk') := by
  obtain ⟨made, moved, hfinished⟩ := finish_eq_ok tree h
  have tree' := hfinished.tree
  have hfolders := hfinished.folders
  obtain ⟨⟨moved, skipped⟩, hmoves, rfl⟩ :=
    reorganize_again tree' hfinished.path hfinished.gathered hfinished.gone
  have hpass : ∀ rewrite : Text → Text, (∀ t, Html.rewrite port t = t → Html.clean t = t → rewrite t = t) →
      (rewriteFiles site ".html" rewrite).on disk' = (.ok 0, disk') := by
    intro rewrite hrewrite
    refine rewriteFiles_again tree' hfinished.path (by decide) (fun k name x c hfile hends => ?_)
      fun k name x t hfile hends => ?_
    · obtain ⟨hpath, t, rfl, -⟩ := hfinished.page htidy hfile hends
      exact ⟨hpath, t, rfl⟩
    · obtain ⟨-, t', htext, hrewritten, hclean⟩ := hfinished.page htidy hfile hends
      cases htext
      exact hrewrite t hrewritten hclean
  have hsheets : (rewriteSheets site).on disk' = (.ok 0, disk') := by
    have hfolder := hfolders .stylesheet
    rw [AssetKind.destination_eq] at hfolder
    have hhome : AssetKind.stylesheet.home ≠ [] := by simp [AssetKind.home]
    obtain ⟨hpath, hlookup⟩ := (tree'.isFolder_iff hhome AssetKind.stylesheet.isPlain_home).1 hfolder
    unfold rewriteSheets
    rw [AssetKind.destination_eq]
    refine rewriteFiles_again (tree'.sub hhome hlookup) hpath (by decide)
      (fun k name x c hfile hends => ?_) fun k name x t hfile hends => ?_
    · obtain ⟨hpath, t, rfl, -⟩ := hfinished.sheet hfile hends
      rw [AssetKind.destination_eq] at hpath
      exact ⟨hpath, t, rfl⟩
    · obtain ⟨-, t', htext, hrewritten⟩ := hfinished.sheet hfile hends
      cases htext
      exact hrewritten
  refine ⟨skipped, ?_⟩
  unfold finish
  rw [Edit.on_bind_ok (prepareFolders_again tree' hfolders), Edit.on_bind_ok hmoves]
  unfold rewritePages cleanPages
  rw [Edit.on_bind_ok (hpass (Html.rewrite port) fun t hrewrite _ => hrewrite), Edit.on_bind_ok hsheets,
    Edit.on_bind_ok (hpass Html.clean fun t _ hclean => hclean)]
  rfl

/-- Whether the text of a file is tidy. -/
def isTidy : Entry → Bool
  | .file _ (.text t) => Html.Tidy t
  | _ => true

/-- A small site as it is mirrored. -/
def mirrored : Disk where
  entries :=
    [ (["build".toList], .folder),
      (["build".toList, "app.js".toList], .file false (.text "start()")),
      (["build".toList, "assets".toList], .folder),
      (["build".toList, "assets".toList, "app.css".toList],
        .file false (.text "background: url(logo.png)")),
      (["build".toList, "index.html".toList], .file false (.text
        "<meta name=\"csrf-token\">\n<link href=\"assets/app.css\"><img src=\"logo.png\">")),
      (["build".toList, "logo.png".toList], .file false (.binary [137])) ]
  sorted := by decide

theorem tree_mirrored : Tree "build" ["build".toList] mirrored := by
  have hclosed : mirrored.Closed := Disk.closed_of_forall_mem (by decide)
  have hplain : Disk.Plain mirrored [] := Disk.plain_of_forall_mem (by decide) []
  exact (Disk.tree_of_plain hclosed hplain).sub (k := ["build".toList]) (by simp) (by decide)

theorem folders_mirrored {k : Key} {name : Text}
    (h : mirrored.lookup (["build".toList] ++ (k ++ [name])) = some .folder) : AssetKind.of? name = none := by
  have hnames : ∀ entry ∈ mirrored.entries, entry.2 = .folder → ∀ name ∈ entry.1.getLast?,
      AssetKind.of? name = none := by
    decide
  rw [Disk.lookup, if_neg (by simp)] at h
  refine hnames _ (Disk.mem_of_lookup h) rfl name ?_
  rw [← List.append_assoc, List.getLast?_concat]
  rfl

theorem files_mirrored {j k : Key} {name : Text} {x y : Bool} {c d : Content}
    (hj : mirrored.lookup (["build".toList] ++ (j ++ [name])) = some (.file x c))
    (hk : mirrored.lookup (["build".toList] ++ (k ++ [name])) = some (.file y d)) : j = k := by
  have hkeys : ∀ entry ∈ mirrored.entries, ∀ entry' ∈ mirrored.entries, entry.2.isFile → entry'.2.isFile →
      entry.1.getLast? = entry'.1.getLast? → entry.1 = entry'.1 := by
    decide +kernel
  rw [Disk.lookup, if_neg (by simp)] at hj hk
  have hsame := hkeys _ (Disk.mem_of_lookup hj) _ (Disk.mem_of_lookup hk) rfl rfl (by
    rw [← List.append_assoc, ← List.append_assoc, List.getLast?_concat, List.getLast?_concat])
  exact List.append_cancel_right (List.append_cancel_left hsame)

theorem finish_mirrored : (finish "build" 3000).on mirrored
    = (.ok ⟨⟨3, 0⟩, 1, 1, 1⟩, ((finish "build" 3000).on mirrored).2) :=
  Edit.on_of_fst (by decide +kernel)

theorem finish_again_mirrored : ∃ skipped,
    (finish "build" 3000).on ((finish "build" 3000).on mirrored).2
      = (.ok ⟨⟨0, skipped⟩, 0, 0, 0⟩, ((finish "build" 3000).on mirrored).2) := by
  refine finish_again tree_mirrored (fun k name x t hfile _ => ?_) finish_mirrored
  have hpages : mirrored.entries.all (isTidy ·.2) := by decide +kernel
  rw [Disk.lookup, if_neg (by simp)] at hfile
  exact of_decide_eq_true (List.all_eq_true.1 hpages _ (Disk.mem_of_lookup hfile))

-- ================================================================ where sheets lead

namespace Finished

/-- A stylesheet was there before, or was somewhere else under its name and came where
nothing was. -/
theorem sheet_origin (h : Finished site top port disk made moved disk')
    (hfile : moved.lookup (top ++ AssetKind.stylesheet.home ++ (k ++ [name])) = some (.file x c)) :
    disk.lookup (top ++ AssetKind.stylesheet.home ++ (k ++ [name])) = some (.file x c)
      ∨ k = [] ∧ disk.lookup (top ++ AssetKind.stylesheet.home ++ (k ++ [name])) = none
        ∧ ∃ j, disk.lookup (top ++ (j ++ [name])) = some (.file x c) := by
  have hback : ∀ j, made.lookup j = some (.file x c) → disk.lookup j = some (.file x c) := by
    intro j hj
    rcases h.furnished.new _ _ hj with hbefore | ⟨hfolder, -⟩
    · exact hbefore
    · cases hfolder
  have hassoc : top ++ AssetKind.stylesheet.home ++ (k ++ [name])
      = top ++ ((AssetKind.stylesheet.home ++ k) ++ [name]) := by simp
  rw [hassoc] at hfile ⊢
  rcases h.arranged.file _ name x c hfile with hbefore | ⟨⟨j, hbefore, -⟩, hplace⟩
  · exact .inl (hback _ hbefore)
  · have hkind : ∀ kind : AssetKind, AssetKind.stylesheet.home ++ k = kind.home →
        k = [] ∧ AssetKind.stylesheet = kind := by
      intro kind heq
      obtain ⟨hhome, hk⟩ := List.append_inj (heq.trans (List.append_nil _).symm) rfl
      exact ⟨hk, AssetKind.home_inj hhome⟩
    rcases hplace with hscript | ⟨kind, -, hhome, hnone⟩
    · cases (hkind .script hscript).2
    · refine .inr ⟨(hkind kind hhome).1, ?_, j, hback _ hbefore⟩
      refine Option.eq_none_iff_forall_ne_some.2 fun e he => ?_
      rw [h.furnished.kept _ e he] at hnone
      cases hnone

/-- If some file has the name of an asset, the folder of its kind has one of that name in
the end, provided that no folder is named like an asset. -/
theorem asset (h : Finished site top port disk made moved disk')
    (hfolders : ∀ k name, disk.lookup (top ++ (k ++ [name])) = some .folder → AssetKind.of? name = none)
    (hkind : AssetKind.of? name = some kind)
    (hfile : ∃ k x c, disk.lookup (top ++ (k ++ [name])) = some (.file x c)) :
    ∃ x c, disk'.lookup (top ++ (kind.home ++ [name])) = some (.file x c) := by
  obtain ⟨k, x, c, hbefore⟩ := hfile
  have hentry : ∃ e, disk'.lookup (top ++ (kind.home ++ [name])) = some e := by
    rcases h.arranged.named kind name hkind ⟨k, x, c, h.furnished.kept _ _ hbefore⟩ with
      ⟨j, y, d, hmoved⟩ | ⟨e, hmoved⟩
    · obtain ⟨d', hnow⟩ := h.outline.file hmoved
      by_cases hj : j = kind.home
      · exact ⟨_, by rw [← hj]; exact hnow⟩
      · have hnames := isPlain_home_concat (h.tree.isPlain hnow name (by simp)) kind
        exact ((h.tree.holds_iff (by simp) hnames).1 (h.gathered kind j name y d' hnow hkind hj)).2
    · obtain ⟨e', hnow, -⟩ := h.outline.entry hmoved
      exact ⟨e', hnow⟩
  obtain ⟨e, he⟩ := hentry
  obtain rfl | ⟨y, d, rfl⟩ := h.tree.folder_or_file he
  · exfalso
    rcases h.furnished.new _ _ (h.arranged.folder _ (h.outline.symm.folder he)) with hfolder | ⟨-, other, j, hpre, hj⟩
    · rw [hfolders _ name hfolder] at hkind
      cases hkind
    · rw [← List.append_cancel_left hj] at hpre
      exact absurd hpre.length_le (by simp [AssetKind.home])
  · exact ⟨y, d, he⟩

end Finished

/-- What a stylesheet that an export ends up with has to do with the text of a file before:
`k` are the folders below that of stylesheets in which it is kept. -/
structure SheetLed (top : Key) (disk disk' : Disk) (k : Key) (name : Text) (x : Bool) (c : Content)
    (old : Text) : Prop where
  /-- The file stood there, or it came where nothing was and has its name. -/
  origin : disk.lookup (top ++ AssetKind.stylesheet.home ++ (k ++ [name])) = some (.file x (.text old))
    ∨ k = [] ∧ disk.lookup (top ++ AssetKind.stylesheet.home ++ (k ++ [name])) = none
      ∧ ∃ j, disk.lookup (top ++ (j ++ [name])) = some (.file x (.text old))
  /-- Its text falls into tokens and what is between them. -/
  pieces : ((Css.urlToken.pieces old).map Pattern.Piece.text).flatten = old
  /-- Each token is led after what it refers to, and nothing else changes. -/
  led : ∃ outs, List.Forall₂ Css.LedTo (Css.urlToken.pieces old) outs ∧ c = .text outs.flatten
  /-- Where a token is led there is a file, if some file had the name it refers to. -/
  resolves : ∀ hit kind n suffix, .hit hit ∈ Css.urlToken.pieces old →
    Css.Refers (Text.trim (hit.group 2)) kind n suffix →
    (∃ j y d, disk.lookup (top ++ (j ++ [n])) = some (.file y d)) →
    ∃ y d, disk'.lookup (top ++ (kind.home ++ [n])) = some (.file y d)

/-- Every stylesheet that an export ends up with comes from one of its name, and its
references are led after the files, provided that no folder is named like an asset. -/
theorem finish_leads_sheets (tree : Tree site top disk)
    (hfolders : ∀ k name, disk.lookup (top ++ (k ++ [name])) = some .folder → AssetKind.of? name = none)
    (h : (finish site port).on disk = (.ok report, disk'))
    (hsheet : disk'.lookup (top ++ AssetKind.stylesheet.home ++ (k ++ [name])) = some (.file x c))
    (hends : Text.endsWith name ".css") : ∃ old, SheetLed top disk disk' k name x c old := by
  obtain ⟨made, moved, hfinished⟩ := finish_eq_ok tree h
  obtain ⟨c', hbefore⟩ := hfinished.outline.symm.file hsheet
  obtain ⟨-, old, rfl, hnow⟩ := hfinished.sheets k name x c' hbefore hends
  rw [hnow] at hsheet
  cases hsheet
  obtain ⟨hpieces, outs, hled, hrewrite⟩ := Css.led_pieces old
  refine ⟨old, hfinished.sheet_origin hbefore, hpieces, ⟨outs, hled, by rw [hrewrite]⟩, ?_⟩
  intro hit kind n suffix _ hrefers hfile
  exact hfinished.asset hfolders hrefers.kind_eq hfile

theorem finish_leads_sheets_mirrored : ∃ old, SheetLed ["build".toList] mirrored
    ((finish "build" 3000).on mirrored).2 [] "app.css" false
    (.text "background: url(\"/assets/img/logo.png\")") old := by
  exact finish_leads_sheets tree_mirrored (fun _ _ => folders_mirrored) finish_mirrored
    (by decide +kernel) (by decide)

-- =================================================================== where pages lead

theorem split_reference (hname : ∀ c ∈ name, Html.inName c) (kind? : Option AssetKind) :
    Text.split '/' (Html.reference kind? name)
      = (match kind? with | some kind => kind.home | none => ["assets".toList]) ++ [name] := by
  have hslash := Text.split_of_notMem (Html.slash_notMem_of_inName hname)
  have hlead : "assets/".toList = "assets".toList ++ ['/'] := by decide
  have hassets : Text.split '/' "assets".toList = ["assets".toList] := by decide
  cases kind? with
  | none =>
      show Text.split '/' ("assets/".toList ++ name) = _
      rw [hlead, List.append_assoc, List.singleton_append, Text.split_append, hslash, hassets]
  | some kind =>
      have hfolder : Text.split '/' kind.folderName = [kind.folderName] := by cases kind <;> decide
      show Text.split '/' ("assets/".toList ++ (kind.folderName ++ ['/']) ++ name) = _
      rw [hlead, List.append_assoc, List.append_assoc, List.append_assoc, List.singleton_append,
        Text.split_append, List.singleton_append, Text.split_append, hslash, hassets, hfolder]
      rfl

/-- A file after the last pass: a stylesheet is rewritten. -/
def asFinished (name : Text) (e : Entry) : Entry :=
  if Text.endsWith name ".css" then e.reworded Css.rewrite else e

/-- If no other asset has the name of an asset, its content is in the folder of its kind in
the end. -/
theorem Finished.content (h : Finished site top port disk made moved disk')
    (hfolders : ∀ k name, disk.lookup (top ++ (k ++ [name])) = some .folder → AssetKind.of? name = none)
    (hkind : AssetKind.of? name = some kind) (hfile : disk.lookup (top ++ (k ++ [name])) = some (.file x c))
    (hunique : ∀ j y d, disk.lookup (top ++ (j ++ [name])) = some (.file y d) → j = k) :
    disk'.lookup (top ++ (kind.home ++ [name])) = some (asFinished name (.file x c)) := by
  obtain ⟨y, d, hnow⟩ := h.asset hfolders hkind ⟨k, x, c, hfile⟩
  obtain ⟨d', hmoved⟩ := h.outline.symm.file hnow
  obtain ⟨j, horigin⟩ := h.origin hmoved
  obtain rfl := hunique j y d' horigin
  rw [hfile] at horigin
  cases horigin
  have hplain : IsPlain name := h.tree.isPlain hnow name (by simp)
  unfold asFinished
  by_cases hsheet : Text.endsWith name ".css"
  · obtain rfl := AssetKind.eq_stylesheet hplain hsheet hkind
    rw [← List.append_assoc] at hmoved ⊢
    obtain ⟨-, t, rfl, hsheeted⟩ := h.sheets [] name _ _ hmoved hsheet
    rw [if_pos hsheet]
    exact hsheeted
  · have hpage : ¬ Text.endsWith name ".html" := by
      intro hpage
      rw [AssetKind.of?_page hplain hpage] at hkind
      cases hkind
    rw [if_neg hsheet, h.others _ _ hpage hsheet, hmoved]

/-- What an export makes of a page right in its folder. -/
structure PageLed (top : Key) (port : Nat) (disk disk' : Disk) (page : Text) (x : Bool) (old : Text) :
    Prop where
  /-- Between its quotation marks it has the rewritten values, before it is cleaned. -/
  values : ∃ t, Text.split '"' t = (Text.split '"' old).map (Html.rewrite port)
    ∧ disk'.lookup (top ++ [page]) = some (.file x (.text (Html.clean t)))
  /-- A value that names an asset right below the folder of assets comes to name the place
  where its content is, if both ways to read the kind off the name agree. -/
  resolves : ∀ value ∈ Text.split '"' old, ∀ name kind y c, value = Html.reference none name →
    (∀ c ∈ name, Html.inName c) → AssetKind.of? name = some kind → AssetKind.marked? name = some kind →
    disk.lookup (top ++ Text.split '/' value) = some (.file y c) →
    disk'.lookup (top ++ Text.split '/' (Html.rewrite port value)) = some (asFinished name (.file y c))

/-- The references of every page right in the folder of an export are led after the assets
right below the folder of assets, provided that no two assets have one name and no folder is
named like an asset. -/
theorem finish_leads_pages (tree : Tree site top disk) {page : Text}
    (hfolders : ∀ k name, disk.lookup (top ++ (k ++ [name])) = some .folder → AssetKind.of? name = none)
    (hunique : ∀ j k name x y c d, disk.lookup (top ++ (j ++ [name])) = some (.file x c) →
      disk.lookup (top ++ (k ++ [name])) = some (.file y d) → AssetKind.of? name ≠ none → j = k)
    (h : (finish site port).on disk = (.ok report, disk'))
    (hpage : disk.lookup (top ++ [page]) = some (.file x c)) (hends : Text.endsWith page ".html") :
    ∃ old, c = .text old ∧ PageLed top port disk disk' page x old := by
  obtain ⟨made, moved, hfinished⟩ := finish_eq_ok tree h
  have hplain : IsPlain page := tree.isPlain (k := [page]) hpage page (by simp)
  have hstays : moved.lookup (top ++ ([] ++ [page])) = some (.file x c) := by
    refine hfinished.arranged.other [] page x c (AssetKind.of?_page hplain hends) (fun hpre => ?_)
      (hfinished.furnished.kept _ _ hpage)
    exact absurd hpre.length_le (by simp [modulesHome])
  obtain ⟨-, old, rfl, hnow⟩ := hfinished.pages [] page x c hstays hends
  refine ⟨old, rfl, ⟨Html.rewrite port old, Html.split_rewrite port old, hnow⟩, ?_⟩
  rintro _ - name kind y c rfl hname hkind hmarked hfile
  rw [split_reference hname] at hfile
  rw [Html.rewrite_reference port hname, hmarked, split_reference hname]
  refine hfinished.content hfolders hkind hfile fun j z d hj => hunique j _ name z y d c hj hfile ?_
  rw [hkind]
  exact Option.some_ne_none kind

theorem finish_leads_pages_mirrored : ∃ old,
    Content.text "<meta name=\"csrf-token\">\n<link href=\"assets/app.css\"><img src=\"logo.png\">" = .text old
      ∧ PageLed ["build".toList] 3000 mirrored ((finish "build" 3000).on mirrored).2 "index.html" false old :=
  finish_leads_pages tree_mirrored (fun _ _ => folders_mirrored)
    (fun _ _ _ _ _ _ _ hj hk _ => files_mirrored hj hk) finish_mirrored (by decide +kernel) (by decide)

/-- Other values stay, also those that name an asset which is moved: where the page seeks its
image, there is none in the end. -/
theorem finish_loses_image :
    mirrored.lookup (["build".toList] ++ Text.split '/' "logo.png") = some (.file false (.binary [137]))
      ∧ ((finish "build" 3000).on mirrored).2.lookup ["build".toList, "index.html".toList]
        = some (.file false (.text "\n<link href=\"assets/css/app.css\"><img src=\"logo.png\">"))
      ∧ ((finish "build" 3000).on mirrored).2.lookup (["build".toList] ++ Text.split '/' "logo.png")
        = none := by
  decide +kernel

end SiteScaffold.Export

/-
Pages rewritten value by value. No rule for references reaches over a quotation mark, so a
page falls apart at its quotation marks, and what stands between two of them is rewritten by
itself (`split_rewrite`). What becomes of a value can so be said without the page around it;
a reference to a file right below the folder of assets is led to the folder of the kind that
its name is marked with (`rewrite_reference`).
-/
import SiteScaffold.Proofs.Export.NameKind
import SiteScaffold.Proofs.Path
import SiteScaffold.Proofs.Pattern.Apart

namespace SiteScaffold.Export.Html

open Pattern (captureFree_literal)

variable {port : Nat} {folder name new t u v : Text} {xs : List Text} {kept : Text → Prop}
  {leadPattern extension : Pattern}

-- ==================================================================== the rules

section

variable {q : Char}

/-- What holds of both quotation marks holds of each. -/
theorem forall_isQuote {P : Char → Prop} (hdouble : P '"') (hsingle : P '\'') (hq : Pattern.isQuote q) : P q := by
  simp only [Pattern.isQuote, Bool.or_eq_true, decide_eq_true_eq] at hq
  rcases hq with rfl | rfl
  · exact hdouble
  · exact hsingle

theorem spares_fileWith (hq : Pattern.isQuote q) (h : extension.spares q) : (fileWith extension).spares q := by
  have hname : (Pattern.oneOrMore inName ++ ("." : Pattern)).spares q :=
    forall_isQuote (P := fun q => (Pattern.oneOrMore inName ++ ("." : Pattern)).spares q) (by decide) (by decide) hq
  show (((Pattern.oneOrMore inName ++ ("." : Pattern)).spares q && extension.spares q) && true) = true
  rw [hname, h]
  rfl

/-- A rule rewrites by itself what stands on both sides of a quotation mark. -/
theorem relocate_append (hq : Pattern.isQuote q) (hext : Lists extension xs) (hextension : extension.spares q)
    (hfree : leadPattern.captureFree) (hlead : ∀ before l rest, leadPattern.Matches before l rest → IsLead l)
    (hspares : leadPattern.spares q) (folder u v : Text) :
    relocate (leadPattern ++ fileWith extension) folder (u ++ q :: v)
      = relocate (leadPattern ++ fileWith extension) folder u
        ++ q :: relocate (leadPattern ++ fileWith extension) folder v := by
  refine Pattern.rewrite_append ?_ (Text.not_isWord_of_isQuote hq) (hit_ne_nil hext hfree hlead) _
  rw [Pattern.spares_append, hspares, spares_fileWith hq hextension]
  rfl

theorem modules_append (hq : Pattern.isQuote q) (u v : Text) :
    relocate moduleReference "assets/js/" (u ++ q :: v)
      = relocate moduleReference "assets/js/" u ++ q :: relocate moduleReference "assets/js/" v := by
  refine relocate_append hq lists_js ?_ rfl (fun _ _ _ => isLead_controllers) ?_ _ u v
  · exact forall_isQuote (P := fun q => (Pattern.literal "js".toList).spares q) (by decide) (by decide) hq
  · exact forall_isQuote (P := fun q => (Pattern.literal "assets/controllers/".toList
      ++ Pattern.optional (Pattern.oneOrMore inPath ++ "/")).spares q) (by decide) (by decide) hq

theorem spares_extensionOf (hq : Pattern.isQuote q) (kind : AssetKind) : (extensionOf kind).spares q := by
  cases kind <;> exact forall_isQuote (P := fun q => (extensionOf _).spares q) (by decide) (by decide) hq

theorem lead_append (hq : Pattern.isQuote q) (u v : Text) (kind : AssetKind) :
    lead (u ++ q :: v) kind = lead u kind ++ q :: lead v kind := by
  refine relocate_append hq (lists_extensionOf kind) (spares_extensionOf hq kind) (captureFree_literal _)
    (fun _ _ _ => isLead_assets) ?_ _ u v
  exact forall_isQuote (P := fun q => (Pattern.literal "assets/".toList).spares q) (by decide) (by decide) hq

theorem foldl_lead_append (hq : Pattern.isQuote q) (u v : Text) (kinds : List AssetKind) :
    kinds.foldl lead (u ++ q :: v) = kinds.foldl lead u ++ q :: kinds.foldl lead v := by
  induction kinds generalizing u v with
  | nil => rfl
  | cons kind kinds ih => rw [List.foldl_cons, lead_append hq, ih, List.foldl_cons, List.foldl_cons]

theorem server_append (hq : Pattern.isQuote q) (port : Nat) (u v : Text) :
    relocate (imageOnServer port) "assets/img/" (u ++ q :: v)
      = relocate (imageOnServer port) "assets/img/" u ++ q :: relocate (imageOnServer port) "assets/img/" v := by
  have hdigits : (Pattern.literal (Text.ofNat port)).spares q := Pattern.spares_literal
    (Relocated.notMem_ofNat (forall_isQuote (P := fun q => q.isDigit = false) (by decide) (by decide) hq))
  have hscheme : (Pattern.literal "http://localhost:".toList).spares q :=
    forall_isQuote (P := fun q => (Pattern.literal "http://localhost:".toList).spares q) (by decide) (by decide) hq
  have hslash : (Pattern.literal "/".toList).spares q :=
    forall_isQuote (P := fun q => (Pattern.literal "/".toList).spares q) (by decide) (by decide) hq
  refine relocate_append hq lists_imageExtension (spares_extensionOf hq .image) (by simp)
    (fun _ _ _ => isLead_server) ?_ _ u v
  rw [Pattern.spares_append, Pattern.spares_append, hscheme, hdigits, hslash]
  rfl

/-- What stands on both sides of a quotation mark is rewritten by itself. -/
theorem rewrite_append (hq : Pattern.isQuote q) (port : Nat) (u v : Text) :
    rewrite port (u ++ q :: v) = rewrite port u ++ q :: rewrite port v := by
  rw [rewrite_eq_leads, modules_append hq, foldl_lead_append hq, server_append hq, ← rewrite_eq_leads,
    ← rewrite_eq_leads]

end

-- ================================================================== single values

/-- Rewriting brings no quotation mark. -/
theorem Relocated.quote_notMem (hfolder : '"' ∉ folder) (ht : '"' ∉ t)
    (h : Relocated kept xs folder t new) : '"' ∉ new := by
  induction h with
  | nil => exact ht
  | plain c t new hkept htail ih =>
      obtain ⟨hc, ht⟩ := not_or.1 (mt List.mem_cons.2 ht)
      exact mt List.mem_cons.1 (not_or.2 ⟨hc, ih ht⟩)
  | moved l name t new hlead hname htail ih =>
      simp only [List.mem_append, not_or] at ht ⊢
      exact ⟨hfolder, ht.2.1, ih ht.2.2⟩

theorem quote_notMem_rewrite (ht : '"' ∉ t) : '"' ∉ rewrite port t := by
  have hlead : ∀ (t : Text) (kind : AssetKind), '"' ∉ t → '"' ∉ lead t kind := by
    intro t kind ht
    refine (relocated_assets (lists_extensionOf kind) _ t).quote_notMem ?_ ht
    cases kind <;> decide
  have hleads : ∀ (kinds : List AssetKind) (t : Text), '"' ∉ t → '"' ∉ kinds.foldl lead t := by
    intro kinds
    induction kinds with
    | nil => exact fun t ht => ht
    | cons kind kinds ih => exact fun t ht => ih _ (hlead t kind ht)
  rw [rewrite_eq_leads]
  refine (relocated_images port _).quote_notMem (by decide) (hleads _ _ ?_)
  exact (relocated_modules t).quote_notMem (by decide) ht

/-- Between its quotation marks, a rewritten page has the rewritten values. -/
theorem split_rewrite (port : Nat) (page : Text) :
    Text.split '"' (rewrite port page) = (Text.split '"' page).map (rewrite port) := by
  -- on the length: a page goes on behind its first quotation mark
  induction hlen : page.length using Nat.strongRecOn generalizing page with
  | ind n ih =>
      by_cases hmem : '"' ∈ page
      · obtain ⟨u, v, rfl⟩ := List.append_of_mem hmem
        have hu := ih u.length (by rw [← hlen, List.length_append, List.length_cons]; omega) u rfl
        have hv := ih v.length (by rw [← hlen, List.length_append, List.length_cons]; omega) v rfl
        rw [rewrite_append (by decide), Text.split_append, Text.split_append, hu, hv, List.map_append]
      · rw [Text.split_of_notMem hmem, Text.split_of_notMem (quote_notMem_rewrite hmem)]
        rfl

theorem quote_notMem_reference (hname : ∀ c ∈ name, inName c) (kind? : Option AssetKind) :
    '"' ∉ reference kind? name := by
  have hmem : '"' ∉ name := fun h => absurd (hname _ h) (by decide)
  cases kind? with
  | none =>
      have hfolder : '"' ∉ "assets/".toList := by decide
      exact fun h => (List.mem_append.1 h).elim hfolder hmem
  | some kind =>
      have hfolder : '"' ∉ "assets/".toList ++ (kind.folderName ++ ['/']) := by cases kind <;> decide
      exact fun h => (List.mem_append.1 h).elim hfolder hmem

/-- A reference to a file right below the folder of assets is led to the folder of the kind
that the name is marked with. -/
theorem rewrite_reference (port : Nat) (hname : ∀ c ∈ name, inName c) :
    rewrite port (reference none name) = reference (AssetKind.marked? name) name := by
  have hvalue : ∀ t, '"' ∉ t → Text.split '"' (inQuotes t) = [[], t, []] := by
    intro t ht
    rw [inQuotes, Text.split_sep, Text.split_append, Text.split_of_notMem ht]
    rfl
  have hsplit := split_rewrite port (inQuotes (reference none name))
  rw [rewrite_inQuotes port hname, hvalue _ (quote_notMem_reference hname _),
    hvalue _ (quote_notMem_reference hname _)] at hsplit
  exact (List.cons.inj (List.cons.inj hsplit).2).1.symm

end SiteScaffold.Export.Html

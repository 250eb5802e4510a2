/-
The kind of a file, as its name shows it and as a reference to it does. A file is moved by
the last extension of its name, in whatever case it is written (`AssetKind.of?`). A reference
is led by the first kind of which some extension ends a word in the name, as it is written
(`AssetKind.marked?`). So a reference to a file right below the folder of assets comes to
lead where the file is moved exactly if the two agree on the name (`rewrite_reference_iff`).

They agree on a name with a single dot and an extension of small letters and digits
(`AssetKind.marked?_eq_of?`). They do not if the extension is in capitals, or if another
one follows it (`rewrite_reference_capitals`).
-/
import SiteScaffold.Export.AssetKind
import SiteScaffold.Proofs.Export.Relocation
import SiteScaffold.Proofs.Path.Under

namespace SiteScaffold.Export

open Path (IsPlain)
open Html (inName NamesFile segment IsFolder Lists Quiet Relocated)

variable {name t : Text} {kind : AssetKind}

-- ============================================================== kinds in a name

namespace AssetKind

/-- Whether an extension of the kind stands behind a dot of the text and ends a word. -/
def marksFrom (kind : AssetKind) : Text → Bool
  | [] => false
  | c :: rest =>
    c = '.' && kind.extensions.any (fun x => (Text.after? x rest).any fun r =>
      !r.head?.any Text.isWord)
    || kind.marksFrom rest

/-- Whether an extension of the kind stands behind a dot of the name, with something in
front of the dot, and ends a word. -/
def marks (kind : AssetKind) (name : Text) : Bool := kind.marksFrom (name.drop 1)

/-- The kinds in the order in which references are led. -/
def ledOrder : List AssetKind := [script, stylesheet, image, font]

/-- The first kind that the name is marked with. -/
def marked? (name : Text) : Option AssetKind := ledOrder.find? (·.marks name)

theorem marksFrom_iff : kind.marksFrom t ↔
    ∃ a x r, t = a ++ '.' :: (x ++ r) ∧ x ∈ kind.extensions ∧ r.head?.any Text.isWord = false := by
  induction t with
  | nil => simp [marksFrom]
  | cons c t ih =>
      have hhere : (c = '.' && kind.extensions.any (fun x => (Text.after? x t).any fun r =>
            !r.head?.any Text.isWord)) = true ↔
          c = '.' ∧ ∃ x r, t = x ++ r ∧ x ∈ kind.extensions ∧ r.head?.any Text.isWord = false := by
        simp only [Bool.and_eq_true, decide_eq_true_eq, List.any_eq_true, Option.any_eq_true_iff_get,
          Bool.not_eq_true']
        refine and_congr_right fun _ => ⟨?_, ?_⟩
        · rintro ⟨x, hx, hsome, hr⟩
          exact ⟨x, _, Text.after?_eq_some_iff.1 (Option.some_get hsome).symm, hx, hr⟩
        · rintro ⟨x, r, rfl, hx, hr⟩
          have hafter : Text.after? x (x ++ r) = some r := Text.after?_eq_some_iff.2 rfl
          exact ⟨x, hx, by rw [hafter]; rfl, by simpa [hafter] using hr⟩
      rw [marksFrom, Bool.or_eq_true, hhere, ih]
      constructor
      · rintro (⟨rfl, x, r, rfl, hx, hr⟩ | ⟨a, x, r, rfl, hx, hr⟩)
        · exact ⟨[], x, r, rfl, hx, hr⟩
        · exact ⟨c :: a, x, r, rfl, hx, hr⟩
      · rintro ⟨a, x, r, htext, hx, hr⟩
        cases a with
        | nil =>
            obtain ⟨rfl, rfl⟩ := List.cons_eq_cons.1 htext
            exact .inl ⟨rfl, x, r, rfl, hx, hr⟩
        | cons d a =>
            obtain ⟨-, rfl⟩ := List.cons_eq_cons.1 htext
            exact .inr ⟨a, x, r, rfl, hx, hr⟩

/-- A name marked with a kind is one that a reference names a file of the kind by. -/
theorem marks_iff : kind.marks name ↔ NamesFile kind.extensions name := by
  rw [marks, marksFrom_iff]
  constructor
  · rintro ⟨a, x, r, htext, hx, hr⟩
    cases name with
    | nil => simp at htext
    | cons c name =>
        obtain rfl : name = a ++ '.' :: (x ++ r) := htext
        exact ⟨c :: a, x, r, rfl, by simp, hx, hr⟩
  · rintro ⟨stem, x, r, rfl, hne, hx, hr⟩
    obtain ⟨c, a, rfl⟩ := List.exists_cons_of_ne_nil hne
    exact ⟨a, x, r, rfl, hx, hr⟩

end AssetKind

namespace Html

-- ================================================================= one reference

/-- A text in double quotation marks. -/
def inQuotes (t : Text) : Text := '"' :: (t ++ ['"'])

/-- A reference to a file in the folder of a kind, or right below the folder of assets. -/
def reference (kind? : Option AssetKind) (name : Text) : Text :=
  match kind? with
  | some kind => "assets/".toList ++ (kind.folderName ++ ['/']) ++ name
  | none => "assets/".toList ++ name

theorem isFolder_folderName (kind : AssetKind) :
    IsFolder ("assets/".toList ++ (kind.folderName ++ ['/'])) := by
  cases kind with
  | image => exact ⟨"img", by decide, rfl⟩
  | script => exact ⟨"js", by decide, rfl⟩
  | stylesheet => exact ⟨"css", by decide, rfl⟩
  | font => exact ⟨"fonts", by decide, rfl⟩

/-- A lead with several slashes does not stand in a text with less. -/
theorem quiet_of_count_slash {lead : Text} {goesOn : Text → Prop}
    (h : t.count '/' < lead.count '/') : Quiet lead goesOn t := by
  rintro u v rfl ⟨s, rfl, -⟩
  simp only [List.count_append] at h
  omega

theorem slash_notMem_inQuotes (hname : ∀ c ∈ name, inName c) : '/' ∉ name ++ ['"'] := by
  have hmem := slash_notMem_of_inName hname
  simp [hmem]

theorem segment_quoted (hname : ∀ c ∈ name, inName c) : segment (name ++ ['"']) = name := by
  rw [segment_append hname, segment_cons, if_neg (by decide), List.append_nil]

namespace Relocated

variable {kept : Text → Prop} {xs : List Text} {folder new : Text}

/-- A text without a slash stays. -/
theorem eq_of_slash_notMem (ht : '/' ∉ t) (h : Relocated kept xs folder t new) : new = t := by
  induction h with
  | nil => rfl
  | plain c t new hkept htail ih => rw [ih (mt (List.mem_cons_of_mem c) ht)]
  | moved l name t new hlead hname htail ih =>
      obtain ⟨c, k, rfl, -⟩ := hlead.ends
      simp at ht

/-- A quotation mark stays. -/
theorem of_quote (h : Relocated kept xs folder ('"' :: t) new) :
    ∃ new', new = '"' :: new' ∧ Relocated kept xs folder t new' := by
  generalize htext : '"' :: t = all at h
  cases h with
  | nil => cases htext
  | plain c t new hkept htail =>
      obtain ⟨rfl, rfl⟩ := List.cons_eq_cons.1 htext
      exact ⟨new, rfl, htail⟩
  | moved l name t new hlead hname htail =>
      rcases hlead.starts with ⟨r, rfl⟩ | ⟨r, rfl⟩
      · cases (List.cons_eq_cons.1 htext).1
      · cases (List.cons_eq_cons.1 htext).1

/-- Where the text does not stay and goes on with a single slash, the lead up to the slash
becomes the folder. -/
theorem of_not_kept {u rest : Text} (hnot : ¬ kept (u ++ '/' :: rest)) (hu : '/' ∉ u)
    (hrest : '/' ∉ rest) (h : Relocated kept xs folder (u ++ '/' :: rest) new) :
    new = folder ++ rest := by
  generalize htext : u ++ '/' :: rest = all at h hnot
  cases h with
  | nil => simp at htext
  | plain c t new hkept htail => exact absurd hkept hnot
  | moved l name t new hlead hname htail =>
      obtain ⟨c, k, rfl, -⟩ := hlead.ends
      have hshape : (c :: k) ++ '/' :: (name ++ t) = u ++ '/' :: rest := by
        rw [htext]
        simp
      obtain ⟨y, hy, hcut⟩ := Text.exists_append_of_notMem hshape hu
      cases y with
      | nil =>
          obtain ⟨-, rfl⟩ := List.cons_eq_cons.1 hcut
          have hslash : '/' ∉ t := fun hmem => hrest (List.mem_append_right _ hmem)
          rw [htail.eq_of_slash_notMem hslash]
      | cons d y =>
          obtain ⟨-, rfl⟩ := List.cons_eq_cons.1 hcut
          simp at hrest

end Relocated

variable {extension : Pattern} {xs : List Text}

/-- A rule for assets leads a reference to a name that it names a file by. -/
theorem relocate_reference (hext : Lists extension xs) (hname : ∀ c ∈ name, inName c)
    (hnames : NamesFile xs name) (folder : Text) :
    relocate (assetReference extension) folder (inQuotes (reference none name))
      = inQuotes (folder ++ name) := by
  have hmoves := relocated_assets hext folder (inQuotes (reference none name))
  generalize relocate (assetReference extension) folder (inQuotes (reference none name)) = new at hmoves ⊢
  obtain ⟨new, rfl, hrest⟩ := hmoves.of_quote
  have hshape : reference none name ++ ['"'] = "assets".toList ++ '/' :: (name ++ ['"']) := by
    have hlead : "assets/".toList = "assets".toList ++ ['/'] := by decide
    show "assets/".toList ++ name ++ ['"'] = _
    rw [hlead]
    simp
  rw [hshape] at hrest
  have hsegment : NamesFile xs (segment (name ++ ['"'])) := by
    rw [segment_quoted hname]
    exact hnames
  have hlead : ¬ ¬ Leads "assets/" (fun s => NamesFile xs (segment s))
      ("assets".toList ++ '/' :: (name ++ ['"'])) := not_not_intro ⟨name ++ ['"'], rfl, hsegment⟩
  rw [hrest.of_not_kept hlead (by decide) (slash_notMem_inQuotes hname), inQuotes,
    List.append_assoc]

/-- A rule for assets leaves other references right below the folder of assets alone. -/
theorem relocate_reference_of_not (hext : Lists extension xs) (hname : ∀ c ∈ name, inName c)
    (hnames : ¬ NamesFile xs name) (folder : Text) :
    relocate (assetReference extension) folder (inQuotes (reference none name))
      = inQuotes (reference none name) := by
  refine relocate_of_quiet (fun _ _ => startsAt_assetReference hext) ?_
  have hrest : Quiet "assets/" (fun s => NamesFile xs (segment s)) ("ssets/".toList ++ (name ++ ['"'])) := by
    exact .append (a := 'a') (by decide)
      (quiet_of_notMem (c := '/') (by decide) (slash_notMem_inQuotes hname))
  show Quiet (String.toList "assets/") _ ('"' :: ("assets/".toList ++ name ++ ['"']))
  refine quiet_cons.2 ⟨not_leads_cons (by decide), ?_⟩
  rw [List.append_assoc]
  refine quiet_cons.2 ⟨?_, hrest⟩
  rintro ⟨s, htext, hs⟩
  have htext' : "assets/".toList ++ (name ++ ['"']) = "assets/".toList ++ s := htext
  have hcut : name ++ ['"'] = s := List.append_cancel_left htext'
  rw [← hcut, segment_quoted hname] at hs
  exact hnames hs

/-- A rule for assets leaves references into the folders of kinds alone. -/
theorem relocate_reference_some (hext : Lists extension xs) (hname : ∀ c ∈ name, inName c)
    (kind : AssetKind) (folder : Text) :
    relocate (assetReference extension) folder (inQuotes (reference (some kind) name))
      = inQuotes (reference (some kind) name) := by
  refine relocate_of_quiet (fun _ _ => startsAt_assetReference hext) ?_
  have hfolder := isFolder_folderName kind
  have hhead := not_leads_folder xs (name ++ ['"']) hfolder
  show Quiet (String.toList "assets/") _ ('"' :: (_ ++ name ++ ['"']))
  refine quiet_cons.2 ⟨not_leads_cons (by decide), ?_⟩
  rw [List.append_assoc]
  obtain ⟨φ, hφ, hmem⟩ := folder_eq_cons hfolder
  rw [hφ] at hhead ⊢
  refine quiet_cons.2 ⟨hhead, .append (a := 'a') hmem ?_⟩
  exact quiet_of_notMem (c := '/') (by decide) (slash_notMem_inQuotes hname)

/-- The rule for modules leaves all these references alone. -/
theorem modules_reference (hname : ∀ c ∈ name, inName c) (kind? : Option AssetKind) :
    relocate moduleReference "assets/js/" (inQuotes (reference kind? name))
      = inQuotes (reference kind? name) := by
  refine relocate_of_quiet (fun _ _ => startsAt_moduleReference) ?_
  have hrest : Quiet "assets/controllers/" NamesScript (name ++ ['"']) :=
    quiet_of_notMem (c := '/') (by decide) (slash_notMem_inQuotes hname)
  cases kind? with
  | none =>
      refine quiet_of_count_slash ?_
      have hlead : "assets/".toList.count '/' = 1 ∧ "assets/controllers/".toList.count '/' = 2 := by
        decide
      have hnone : (name ++ ['"']).count '/' = 0 :=
        List.count_eq_zero.2 (slash_notMem_inQuotes hname)
      show ('"' :: ("assets/".toList ++ name ++ ['"'])).count '/' < _
      rw [List.append_assoc, List.count_cons_of_ne (by decide), List.count_append, hnone]
      omega
  | some kind =>
      have hfolder := isFolder_folderName kind
      have hhead := not_leads_controllers_folder NamesScript (name ++ ['"']) hfolder
      show Quiet (String.toList "assets/controllers/") _ ('"' :: (_ ++ name ++ ['"']))
      refine quiet_cons.2 ⟨not_leads_cons (by decide), ?_⟩
      rw [List.append_assoc]
      obtain ⟨φ, hφ, hmem⟩ := folder_eq_cons hfolder
      rw [hφ] at hhead ⊢
      exact quiet_cons.2 ⟨hhead, hrest.append (a := 'a') hmem⟩

/-- So does the rule for images on the server. -/
theorem server_reference (hname : ∀ c ∈ name, inName c) (port : Nat) (kind? : Option AssetKind) :
    relocate (imageOnServer port) "assets/img/" (inQuotes (reference kind? name))
      = inQuotes (reference kind? name) := by
  refine relocate_of_quiet (fun _ _ => startsAt_imageOnServer port) (quiet_of_count_slash ?_)
  have hname : name.count '/' = 0 := List.count_eq_zero.2 (slash_notMem_of_inName hname)
  have hlead : 3 ≤ ("http://localhost:".toList ++ Text.ofNat port ++ ['/']).count '/' := by
    have hscheme : "http://localhost:".toList.count '/' = 2 := by decide
    simp only [List.count_append, hscheme, List.count_singleton_self]
    omega
  have hreference : (reference kind? name).count '/' ≤ 2 := by
    cases kind? with
    | none =>
        have hfolder : "assets/".toList.count '/' = 1 := by decide
        show ("assets/".toList ++ name).count '/' ≤ 2
        rw [List.count_append]
        omega
    | some kind =>
        have hfolder : ("assets/".toList ++ (kind.folderName ++ ['/'])).count '/' = 2 := by
          cases kind <;> decide
        show ("assets/".toList ++ (kind.folderName ++ ['/']) ++ name).count '/' ≤ 2
        rw [List.count_append]
        omega
  refine Nat.lt_of_lt_of_le ?_ hlead
  rw [inQuotes, List.count_cons_of_ne (by decide), List.count_append]
  have hquote : ['"'].count '/' = 0 := by decide
  omega

-- ==================================================================== all rules

/-- The pattern of the extensions of a kind. -/
def extensionOf : AssetKind → Pattern
  | .image => imageExtension
  | .script => "js"
  | .stylesheet => "css"
  | .font => fontExtension

theorem lists_extensionOf (kind : AssetKind) : Lists (extensionOf kind) kind.extensions := by
  cases kind with
  | image => exact lists_imageExtension
  | script => exact lists_js
  | stylesheet => exact lists_css
  | font =>
      have hmem : ∀ x, x ∈ fontExtensions ↔ x ∈ AssetKind.font.extensions := by
        intro x
        simp only [fontExtensions, AssetKind.extensions, List.mem_cons, List.not_mem_nil, or_false]
        exact or_left_comm
      exact {
        matches_iff := lists_fontExtension.matches_iff.trans (hmem _)
        ne_nil := fun x hx => lists_fontExtension.ne_nil x ((hmem x).2 hx)
        inside := fun x hx => lists_fontExtension.inside x ((hmem x).2 hx)
      }

/-- The rule for the assets of a kind. -/
def lead (page : Text) (kind : AssetKind) : Text :=
  relocate (assetReference (extensionOf kind)) ("assets/".toList ++ (kind.folderName ++ ['/'])) page

theorem lead_eq {folder : Text} (h : "assets/".toList ++ (kind.folderName ++ ['/']) = folder)
    (page : Text) : lead page kind = relocate (assetReference (extensionOf kind)) folder page := by
  rw [← h]
  rfl

theorem folder_script : "assets/".toList ++ (AssetKind.script.folderName ++ ['/']) = "assets/js/" := by
  decide

theorem folder_stylesheet :
    "assets/".toList ++ (AssetKind.stylesheet.folderName ++ ['/']) = "assets/css/" := by
  decide

theorem folder_image : "assets/".toList ++ (AssetKind.image.folderName ++ ['/']) = "assets/img/" := by
  decide

theorem folder_font : "assets/".toList ++ (AssetKind.font.folderName ++ ['/']) = "assets/fonts/" := by
  decide

theorem rewrite_eq_leads (port : Nat) (page : Text) :
    rewrite port page = relocate (imageOnServer port) "assets/img/"
      (AssetKind.ledOrder.foldl lead (relocate moduleReference "assets/js/" page)) := by
  simp only [AssetKind.ledOrder, List.foldl_cons, List.foldl_nil]
  rw [lead_eq folder_script, lead_eq folder_stylesheet, lead_eq folder_image, lead_eq folder_font]
  rfl

/-- A rule leads a reference that no rule has led, if its name is marked with the kind. -/
theorem lead_reference (hname : ∀ c ∈ name, inName c) (kind : AssetKind)
    (kind? : Option AssetKind) :
    lead (inQuotes (reference kind? name)) kind
      = inQuotes (reference (kind?.or (if kind.marks name then some kind else none)) name) := by
  have hext := lists_extensionOf kind
  cases kind? with
  | some led => exact relocate_reference_some hext hname led _
  | none =>
      by_cases hmarks : kind.marks name
      · rw [if_pos hmarks]
        exact relocate_reference hext hname (AssetKind.marks_iff.1 hmarks) _
      · rw [if_neg hmarks]
        exact relocate_reference_of_not hext hname (mt AssetKind.marks_iff.2 hmarks) _

theorem foldl_lead_reference (hname : ∀ c ∈ name, inName c) (kinds : List AssetKind)
    (kind? : Option AssetKind) :
    kinds.foldl lead (inQuotes (reference kind? name))
      = inQuotes (reference (kind?.or (kinds.find? (·.marks name))) name) := by
  induction kinds generalizing kind? with
  | nil => rw [List.foldl_nil, List.find?_nil, Option.or_none]
  | cons kind kinds ih =>
      rw [List.foldl_cons, lead_reference hname, ih, Option.or_assoc, List.find?_cons]
      cases kind.marks name <;> rfl

/-- A reference shows the kind in whose folder the file is. -/
theorem reference_inj {a b : Option AssetKind} (h : reference a name = reference b name) :
    a = b := by
  have hfolders : ∀ a b : AssetKind,
      "assets/".toList ++ (a.folderName ++ ['/']) = "assets/".toList ++ (b.folderName ++ ['/']) →
        a = b := by
    intro a b
    cases a <;> cases b <;> decide
  have hnone : ∀ kind : AssetKind,
      "assets/".toList ≠ "assets/".toList ++ (kind.folderName ++ ['/']) := by
    intro kind
    cases kind <;> decide
  cases a with
  | none =>
      cases b with
      | none => rfl
      | some b => exact absurd (List.append_cancel_right h) (hnone b)
  | some a =>
      cases b with
      | none => exact absurd (List.append_cancel_right h).symm (hnone a)
      | some b => rw [hfolders a b (List.append_cancel_right h)]

theorem inQuotes_inj {u v : Text} (h : inQuotes u = inQuotes v) : u = v :=
  List.append_cancel_right (List.cons_eq_cons.1 h).2

theorem rewrite_inQuotes (port : Nat) (hname : ∀ c ∈ name, inName c) :
    rewrite port (inQuotes (reference none name))
      = inQuotes (reference (AssetKind.marked? name) name) := by
  rw [rewrite_eq_leads, modules_reference hname, foldl_lead_reference hname,
    server_reference hname, Option.none_or]
  rfl

/-- A reference to a file right below the folder of assets is led to the folder of the kind
that the name is marked with. That is the folder the file is moved to exactly if the last
extension of the name says the same. -/
theorem rewrite_reference_iff (port : Nat) (hname : ∀ c ∈ name, inName c) :
    rewrite port (inQuotes (reference none name))
        = inQuotes (reference (AssetKind.marked? name) name)
      ∧ (rewrite port (inQuotes (reference none name))
          = inQuotes (reference (AssetKind.of? name) name)
        ↔ AssetKind.marked? name = AssetKind.of? name) := by
  have hled := rewrite_inQuotes port hname
  refine ⟨hled, ?_⟩
  rw [hled]
  exact ⟨fun h => reference_inj (inQuotes_inj h), fun h => by rw [h]⟩

/-- Where they say the same, the script is led to the folder it is moved to. -/
theorem rewrite_reference_script :
    rewrite 3000 (inQuotes (reference none "app.min.js"))
      = inQuotes (reference (some .script) "app.min.js") := by
  have hsame : AssetKind.marked? "app.min.js" = AssetKind.of? "app.min.js" := by decide +kernel
  have hname : ∀ c ∈ "app.min.js".toList, inName c := by decide
  exact (rewrite_reference_iff 3000 hname).2.2 hsame

/-- An image with its extension in capitals is moved and its reference is not led after it;
a file that is no script is not moved and its reference is led to the scripts. -/
theorem rewrite_reference_capitals :
    AssetKind.of? "logo.PNG" = some .image
      ∧ rewrite 3000 (inQuotes (reference none "logo.PNG")) = inQuotes (reference none "logo.PNG")
      ∧ AssetKind.of? "app.js.map" = none
      ∧ rewrite 3000 (inQuotes (reference none "app.js.map"))
        = inQuotes (reference (some .script) "app.js.map") := by
  decide +kernel

end Html

namespace AssetKind

-- =================================================== names that both read alike

/-- An extension belongs to one kind. -/
theorem eq_of_mem_extensions {a b : AssetKind} {x : Text} (ha : x ∈ a.extensions)
    (hb : x ∈ b.extensions) : a = b := by
  have hkinds : ∀ a b : AssetKind, ∀ x ∈ a.extensions, x ∈ b.extensions → a = b := by
    intro a b
    cases a <;> cases b <;> decide
  exact hkinds a b x ha hb

/-- The order in which kinds are tried does not matter. -/
theorem find?_extension (x : Text) :
    ledOrder.find? (x ∈ ·.extensions) = all.find? (x ∈ ·.extensions) := by
  have hmem : ∀ kind : AssetKind, kind ∈ ledOrder ∧ kind ∈ all := by
    intro kind
    cases kind <;> decide
  have hfound : ∀ kinds : List AssetKind, (∀ kind, kind ∈ kinds) → ∀ kind : AssetKind,
      x ∈ kind.extensions → kinds.find? (x ∈ ·.extensions) = some kind := by
    intro kinds hall kind hx
    cases hfind : kinds.find? (x ∈ ·.extensions) with
    | none => exact absurd hx (by simpa using List.find?_eq_none.1 hfind kind (hall kind))
    | some found =>
        have hfound := List.find?_some hfind
        rw [eq_of_mem_extensions (of_decide_eq_true hfound) hx]
  by_cases hex : ∃ kind : AssetKind, x ∈ kind.extensions
  · obtain ⟨kind, hx⟩ := hex
    rw [hfound _ (fun kind => (hmem kind).1) kind hx, hfound _ (fun kind => (hmem kind).2) kind hx]
  · have hnone : ∀ kinds : List AssetKind, kinds.find? (x ∈ ·.extensions) = none := fun kinds =>
      List.find?_eq_none.2 fun kind _ hx => hex ⟨kind, of_decide_eq_true hx⟩
    rw [hnone, hnone]

variable {stem x : Text}

/-- The kind of a file is that of what stands behind the last dot of its name. -/
theorem of?_stem (hname : IsPlain (stem ++ '.' :: x)) (hx : '.' ∉ x) :
    of? (stem ++ '.' :: x)
      = if stem.isEmpty then none else all.find? (x.map Char.toLower ∈ ·.extensions) := by
  unfold of?
  rw [Path.extension?_stem hname hx]
  by_cases hstem : stem.isEmpty
  · rw [if_pos hstem, if_pos hstem]
    rfl
  · rw [if_neg hstem, if_neg hstem]
    rfl

/-- A name with one dot and an extension of small letters and digits is marked with the kind
of its extension. -/
theorem marked?_eq_of? (hname : IsPlain (stem ++ '.' :: x)) (hstem : stem ≠ [])
    (hdot : '.' ∉ stem) (hx : '.' ∉ x) (hword : ∀ c ∈ x, Text.isWord c) (hlower : x.map Char.toLower = x) :
    marked? (stem ++ '.' :: x) = of? (stem ++ '.' :: x) := by
  have hmarks : ∀ kind : AssetKind, kind.marks (stem ++ '.' :: x) = decide (x ∈ kind.extensions) := by
    intro kind
    rw [Bool.eq_iff_iff, decide_eq_true_eq, marks_iff]
    constructor
    · rintro ⟨stem', x', r, htext, -, hx', hr⟩
      obtain ⟨y, rfl, hy⟩ := Text.exists_append_of_notMem htext.symm hdot
      have hback : x' ++ r = x := by
        cases y with
        | nil => exact ((List.cons_eq_cons.1 hy).2).symm
        | cons c y =>
            obtain ⟨-, rfl⟩ := List.cons_eq_cons.1 hy
            simp at hx
      cases r with
      | nil => rwa [← hback, List.append_nil]
      | cons c r =>
          rw [List.head?_cons, Option.any_some, hword c (by simp [← hback])] at hr
          cases hr
    · intro hx
      exact ⟨stem, x, [], by rw [List.append_nil], hstem, hx, rfl⟩
  have hof : of? (stem ++ '.' :: x) = all.find? (x ∈ ·.extensions) := by
    rw [of?_stem hname hx, if_neg (by simpa using hstem), hlower]
  rw [hof, ← find?_extension, marked?]
  exact congrArg (ledOrder.find? ·) (funext hmarks)

/-- A page is no asset. -/
theorem of?_page (hname : IsPlain name) (hends : Text.endsWith name ".html") : of? name = none := by
  obtain ⟨stem, rfl⟩ := Text.endsWith_iff.1 hends
  have hsuffix : ".html".toList = '.' :: "html".toList := by decide
  have hnone : all.find? ("html".toList.map Char.toLower ∈ ·.extensions) = none := by decide
  rw [hsuffix] at hname ⊢
  rw [of?_stem hname (by decide), hnone, ite_self]

/-- An asset whose name ends like that of a stylesheet is one. -/
theorem eq_stylesheet (hname : IsPlain name) (hends : Text.endsWith name ".css")
    (hkind : of? name = some kind) : kind = stylesheet := by
  obtain ⟨stem, rfl⟩ := Text.endsWith_iff.1 hends
  have hsuffix : ".css".toList = '.' :: "css".toList := by decide
  have hfound : all.find? ("css".toList.map Char.toLower ∈ ·.extensions) = some stylesheet := by decide
  rw [hsuffix] at hname hkind
  rw [of?_stem hname (by decide), hfound] at hkind
  by_cases hstem : stem.isEmpty
  · rw [if_pos hstem] at hkind
    cases hkind
  · rw [if_neg hstem] at hkind
    cases hkind
    rfl

end AssetKind

end SiteScaffold.Export

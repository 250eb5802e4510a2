/-
What the references of an exported page look like. A reference is a lead, such as
`assets/`, and the name of a file with one of some extensions. Whether a name
follows a lead is decided by the rest of the path segment alone (`NamesFile`,
`segment`), since a segment ends at a slash, a blank or a quotation mark, and all
of these end a word too.

For each pattern of references: where it starts (`startsAt_assetReference`,
`startsAt_moduleReference`, `startsAt_imageOnServer`), and what a hit is made of
(`hit_fileWith`).
-/
import SiteScaffold.Export.Html
import SiteScaffold.Proofs.Pattern.Pieces
import SiteScaffold.Proofs.Text.Class

namespace SiteScaffold.Export.Html

open Pattern

variable {before : Option Char} {t rest : Text} {xs : List Text} {extension : Pattern}

-- ============================================================ path segments

/-- The rest of a path segment. -/
def segment (t : Text) : Text := t.takeWhile inName

theorem segment_cons {c : Char} :
    segment (c :: t) = if inName c then c :: segment t else [] := by
  simp [segment, List.takeWhile_cons]

theorem segment_append {u : Text} (h : ∀ c ∈ u, inName c) :
    segment (u ++ t) = u ++ segment t :=
  List.takeWhile_append_of_pos h

theorem inName_of_mem_segment {c : Char} (h : c ∈ segment t) : inName c :=
  List.all_eq_true.1 List.all_takeWhile c h

/-- What ends a segment is outside words. -/
theorem not_isWord_of_not_inName {c : Char} (h : inName c = false) : Text.isWord c = false := by
  simp only [inName, Bool.and_eq_false_iff, decide_eq_false_iff_not, ne_eq,
    Decidable.not_not, Bool.not_eq_false'] at h
  rcases h with (rfl | h) | h
  · decide
  · exact Text.not_isWord_of_isBlank h
  · exact Text.not_isWord_of_isQuote h

/-- A segment goes over into what follows it without a break, or else a word
ends there. -/
theorem head?_segment_isWord : (segment t).head?.any Text.isWord = t.head?.any Text.isWord := by
  cases t with
  | nil => rfl
  | cons c t =>
      rw [segment_cons]
      split
      · rfl
      next hc =>
        have hword := not_isWord_of_not_inName (Bool.not_eq_true _ ▸ hc)
        simp [hword]

-- ============================================================== file names

/-- The texts that a pattern of extensions stands for. They lie inside words. -/
structure Lists (extension : Pattern) (xs : List Text) : Prop where
  matches_iff : ∀ {before t rest}, extension.Matches before t rest ↔ t ∈ xs
  ne_nil : ∀ x ∈ xs, x ≠ []
  inside : ∀ x ∈ xs, ∀ c ∈ x, Text.isWord c ∧ inName c

/-- A file name with one of the extensions. -/
def IsFileName (xs : List Text) (name : Text) : Prop :=
  ∃ stem x, name = stem ++ '.' :: x ∧ stem ≠ [] ∧ (∀ c ∈ stem, inName c) ∧ x ∈ xs

/-- The segment starts with a file name at whose end a word ends. -/
def NamesFile (xs : List Text) (s : Text) : Prop :=
  ∃ stem x r, s = stem ++ '.' :: (x ++ r) ∧ stem ≠ [] ∧ x ∈ xs
    ∧ r.head?.any Text.isWord = false

theorem IsFileName.inName {name : Text} (hext : Lists extension xs) (h : IsFileName xs name) :
    ∀ c ∈ name, inName c := by
  obtain ⟨stem, x, rfl, -, hstem, hx⟩ := h
  intro c hc
  rcases List.mem_append.1 hc with hc | hc
  · exact hstem c hc
  · rcases List.mem_cons.1 hc with rfl | hc
    · rfl
    · exact (hext.inside x hx c hc).2

/-- The place after a non-empty text of word characters is inside a word on its
left. -/
theorem lastAfter_any_isWord {x : Text} (hne : x ≠ []) (h : ∀ c ∈ x, Text.isWord c) :
    (lastAfter before x).any Text.isWord = true := by
  have hlast := List.dropLast_concat_getLast hne
  rw [← hlast, lastAfter_concat]
  exact h _ (List.getLast_mem hne)

theorem matches_fileWith (hext : Lists extension xs) :
    (fileWith extension).Matches before t rest ↔
      IsFileName xs t ∧ rest.head?.any Text.isWord = false := by
  have hedge : ∀ stem x, x ∈ xs →
      (lastAfter before (stem ++ '.' :: x)).any Text.isWord = true := by
    intro stem x hx
    rw [lastAfter_append, lastAfter_cons]
    exact lastAfter_any_isWord (hext.ne_nil x hx) fun c hc => (hext.inside x hx c hc).1
  simp only [fileWith, matches_append, matches_capture, matches_oneOrMore, matches_literal,
    matches_boundary, hext.matches_iff]
  constructor
  · rintro ⟨u, v, rfl, ⟨w, x, rfl, ⟨stem, dot, rfl, ⟨hne, hstem⟩, rfl⟩, hx⟩, rfl, hboundary⟩
    have hword := hedge stem x hx
    have htext : (stem ++ ".".toList ++ x : Text) = stem ++ '.' :: x := by simp
    rw [htext, hword] at hboundary
    rw [htext, List.append_nil]
    exact ⟨⟨stem, x, rfl, hne, hstem, hx⟩, by simpa using hboundary⟩
  · rintro ⟨⟨stem, x, rfl, hne, hstem, hx⟩, hrest⟩
    refine ⟨stem ++ '.' :: x, [], by simp, ⟨stem ++ ['.'], x, by simp, ?_, hx⟩, rfl, ?_⟩
    · exact ⟨stem, ['.'], rfl, ⟨hne, hstem⟩, rfl⟩
    · rw [hedge stem x hx, hrest]
      rfl

/-- The segment after a lead decides whether a file name follows. -/
theorem startsAt_fileWith (hext : Lists extension xs) :
    (fileWith extension).StartsAt before t ↔ NamesFile xs (segment t) := by
  constructor
  · rintro ⟨u, rest, rfl, hmatches⟩
    obtain ⟨hname, hrest⟩ := (matches_fileWith hext).1 hmatches
    rw [segment_append (hname.inName hext)]
    obtain ⟨stem, x, rfl, hne, -, hx⟩ := hname
    exact ⟨stem, x, segment rest, by simp, hne, hx, by rw [head?_segment_isWord, hrest]⟩
  · rintro ⟨stem, x, r, hsegment, hne, hx, hr⟩
    have hsplit : t = (stem ++ '.' :: x) ++ (r ++ t.dropWhile inName) := by
      calc t = segment t ++ t.dropWhile inName := List.takeWhile_append_dropWhile.symm
        _ = _ := by rw [hsegment]; simp
    have hmem : ∀ c ∈ stem ++ '.' :: (x ++ r), inName c := by
      intro c hc
      exact inName_of_mem_segment (hsegment ▸ hc)
    refine ⟨_, _, hsplit, (matches_fileWith hext).2 ⟨⟨stem, x, rfl, hne, ?_, hx⟩, ?_⟩⟩
    · exact fun c hc => hmem c (List.mem_append_left _ hc)
    · cases r with
      | nil =>
          cases hdrop : t.dropWhile inName with
          | nil => rfl
          | cons c rest =>
              have hc : inName c = false := by
                have := List.head?_dropWhile_not inName t
                simpa [hdrop] using this
              simp [not_isWord_of_not_inName hc]
      | cons c r => exact hr

-- ============================================================== extensions

theorem lists_literal {x : Text} (hne : x ≠ []) (h : ∀ c ∈ x, Text.isWord c ∧ inName c) :
    Lists (literal x) [x] where
  matches_iff := by simp
  ne_nil := by simpa using hne
  inside := by simpa using h

/-- The extensions of images. -/
def imageExtensions : List Text := ["jpg", "jpeg", "png", "gif", "svg", "webp", "ico"]

/-- The extensions of fonts. -/
def fontExtensions : List Text := ["woff2", "woff", "ttf", "eot", "otf"]

theorem lists_js : Lists (literal "js".toList) ["js".toList] :=
  lists_literal (by decide) (by decide)

theorem lists_css : Lists (literal "css".toList) ["css".toList] :=
  lists_literal (by decide) (by decide)

theorem lists_imageExtension : Lists imageExtension imageExtensions where
  matches_iff := by
    intro before t rest
    simp only [imageExtension, matches_or, matches_literal, imageExtensions, List.mem_cons,
      List.not_mem_nil, or_false, or_assoc]
  ne_nil := by decide
  inside := by decide

theorem lists_fontExtension : Lists fontExtension fontExtensions where
  matches_iff := by
    intro before t rest
    simp only [fontExtension, matches_or, matches_append, matches_optional, matches_literal,
      fontExtensions, List.mem_cons, List.not_mem_nil, or_false, or_assoc]
    constructor
    · rintro (⟨u, v, rfl, rfl, rfl | rfl⟩ | h)
      · exact .inl rfl
      · exact .inr (.inl rfl)
      · exact .inr (.inr h)
    · rintro (rfl | rfl | h)
      · exact .inl ⟨"woff".toList, "2".toList, rfl, rfl, .inl rfl⟩
      · exact .inl ⟨"woff".toList, [], rfl, rfl, .inr rfl⟩
      · exact .inr h
  ne_nil := by decide
  inside := by decide

-- =========================================================== leads and names

/-- A text that starts with a fixed lead and goes on as told. -/
def Leads (lead : Text) (goesOn : Text → Prop) (t : Text) : Prop :=
  ∃ s, t = lead ++ s ∧ goesOn s

/-- A script file is named in a later segment of the same path. -/
def NamesScriptLater (t : Text) : Prop :=
  ∃ a s, t = a ++ '/' :: s ∧ (∀ c ∈ a, inPath c) ∧ NamesFile ["js".toList] (segment s)

/-- A script file is named, after folders or not. -/
def NamesScript (t : Text) : Prop :=
  NamesFile ["js".toList] (segment t) ∨ ∃ c s, t = c :: s ∧ inPath c ∧ NamesScriptLater s

theorem namesScriptLater_cons {c : Char} :
    NamesScriptLater (c :: t) ↔
      c = '/' ∧ NamesFile ["js".toList] (segment t) ∨ inPath c ∧ NamesScriptLater t := by
  constructor
  · rintro ⟨a, s, htext, ha, hs⟩
    cases a with
    | nil =>
        obtain ⟨rfl, rfl⟩ := List.cons_eq_cons.1 htext
        exact .inl ⟨rfl, hs⟩
    | cons d a =>
        obtain ⟨rfl, rfl⟩ : c = d ∧ t = a ++ '/' :: s := List.cons_eq_cons.1 htext
        exact .inr ⟨ha c (by simp), a, s, rfl, fun e he => ha e (List.mem_cons_of_mem _ he), hs⟩
  · rintro (⟨rfl, hs⟩ | ⟨hc, a, s, rfl, ha, hs⟩)
    · exact ⟨[], t, rfl, by simp, hs⟩
    · refine ⟨c :: a, s, rfl, ?_, hs⟩
      simpa [hc] using ha

theorem namesScriptLater_append {a : Text} (ha : ∀ c ∈ a, inPath c)
    (h : NamesScriptLater t) : NamesScriptLater (a ++ t) := by
  induction a with
  | nil => exact h
  | cons c a ih =>
      refine namesScriptLater_cons.2 (.inr ⟨ha c (by simp), ih fun d hd => ?_⟩)
      exact ha d (List.mem_cons_of_mem _ hd)

theorem startsAt_assetReference (hext : Lists extension xs) :
    (assetReference extension).StartsAt before t ↔
      Leads "assets/" (fun s => NamesFile xs (segment s)) t := by
  simp only [assetReference, startsAt_literal_append, startsAt_fileWith hext, Leads]

theorem startsAt_imageOnServer (port : Nat) :
    (imageOnServer port).StartsAt before t ↔
      Leads ("http://localhost:" ++ Text.ofNat port ++ ['/'])
        (fun s => NamesFile imageExtensions (segment s)) t := by
  simp only [imageOnServer, startsAt_append, matches_append, matches_literal,
    startsAt_fileWith lists_imageExtension, Leads]
  constructor
  · rintro ⟨_, s, rfl, ⟨_, _, rfl, ⟨_, _, rfl, rfl, rfl⟩, rfl⟩, hname⟩
    exact ⟨s, rfl, hname⟩
  · rintro ⟨s, rfl, hname⟩
    exact ⟨_, s, rfl, ⟨_, _, rfl, ⟨_, _, rfl, rfl, rfl⟩, rfl⟩, hname⟩

theorem startsAt_moduleReference :
    moduleReference.StartsAt before t ↔ Leads "assets/controllers/" NamesScript t := by
  simp only [moduleReference, startsAt_append, matches_append, matches_literal,
    matches_optional, matches_oneOrMore, startsAt_fileWith lists_js, Leads]
  constructor
  · rintro ⟨_, s, rfl, ⟨_, v, rfl, rfl, ⟨a, _, rfl, ⟨hne, ha⟩, rfl⟩ | rfl⟩, hname⟩
    · obtain ⟨c, a, rfl⟩ := List.exists_cons_of_ne_nil hne
      refine ⟨c :: (a ++ '/' :: s), by simp, .inr ⟨c, _, rfl, ha c (by simp), a, s, rfl, ?_, hname⟩⟩
      exact fun d hd => ha d (List.mem_cons_of_mem _ hd)
    · exact ⟨s, by simp, .inl hname⟩
  · rintro ⟨s, rfl, hname | ⟨c, _, rfl, hc, a, s, rfl, ha, hname⟩⟩
    · exact ⟨_, s, rfl, ⟨_, [], (List.append_nil _).symm, rfl, .inr rfl⟩, hname⟩
    · refine ⟨"assets/controllers/".toList ++ (c :: a ++ ['/']), s, by simp,
        ⟨_, _, rfl, rfl, .inl ⟨c :: a, ['/'], rfl, ⟨by simp, ?_⟩, rfl⟩⟩, hname⟩
      simpa [hc] using ha

-- ===================================================================== hits

/-- A hit of a lead and a file name consists of the two, and the name is what it
captures. -/
theorem hit_fileWith {lead : Pattern} {hit : Hit} (hext : Lists extension xs)
    (hfree : lead.captureFree)
    (hmatch : (lead ++ fileWith extension).matchAt ⟨before, t⟩ = some hit) :
    ∃ l name rest, t = l ++ (name ++ rest) ∧ hit.text = l ++ name ∧ hit.group 1 = name
      ∧ lead.Matches before l (name ++ rest) ∧ IsFileName xs name := by
  obtain ⟨rest, htext, haccepts⟩ := matchAt_sound hmatch
  obtain ⟨l, v, hhit, k₁, k₂, hkept, hlead, hfile⟩ := accepts_append.1 haccepts
  obtain ⟨name, w, rfl, k₃, k₄, rfl, hcapture, hboundary⟩ := accepts_append.1 hfile
  obtain ⟨inner, rfl, -⟩ := accepts_capture.1 hcapture
  obtain ⟨hreads, rfl⟩ := (accepts_iff hfree).1 hlead
  obtain ⟨rfl, -⟩ := matches_boundary.1 ⟨_, hboundary⟩
  have hname := ((matches_fileWith hext).1 ⟨_, hfile⟩).1
  rw [List.append_nil] at hname hhit hreads
  refine ⟨l, name, rest, by rw [htext, hhit, List.append_assoc], hhit, ?_, hreads, hname⟩
  rw [Hit.group, Hit.group?, hkept]
  rfl

end SiteScaffold.Export.Html

/-
What becomes of the markup that the shell is put around. The main element of a layout makes way for
that of the shell in two passes: first the lines go that hold nothing but a tag of it, then the
tags that are left. In a layout whose start tags are plain (`Plain`) the two passes are one, which
takes out main tags and such lines and keeps every other character (`unwrapped_withoutMain`): a tag that the
second pass meets stood there before the first one, because no line that goes can be inside a tag.

What is taken out has one `<` each, which starts a main tag. So a text between a `<` that starts
something else and the next `>` is left in one piece (`Unwrapped.split_tag`), the first start tag of
the body among them, and the header is put right behind it (`insert_keeps_markup`).
-/
import SiteScaffold.Proofs.Patch.Shell
import SiteScaffold.Proofs.Pattern.Lines

namespace SiteScaffold.Patch.Shell

open Pattern

variable {bare f front layout new r rest s t tag u w x y z : Text} {before before' : Option Char}

-- ================================================================================ start tags

/-- The quotation mark that is open behind a text, if one is. -/
def openMark : Option Char → Text → Option Char
  | mark, [] => mark
  | none, c :: t => openMark (if isQuote c then some c else none) t
  | some q, c :: t => openMark (if c = q then none else some q) t

/-- What stands in a start tag behind the name of its element, if there is no markup in it: its
values are closed before it ends. -/
structure Attributes (attrs : Text) : Prop where
  apart : attrs.head?.all (fun c => Text.isBlank c || c == '/') = true
  noStart : '<' ∉ attrs
  noStop : '>' ∉ attrs
  closed : openMark none attrs = none

/-- A start tag of an element, without markup in its attributes. -/
def IsStartTag (name tag : Text) : Prop := ∃ attrs, tag = '<' :: (name ++ (attrs ++ ['>'])) ∧ Attributes attrs

/-- A tag of the main element. -/
def IsMainTag (tag : Text) : Prop := IsStartTag "main" tag ∨ tag = mainClose

/-- Whether no tag is open behind a text. -/
def NoneOpen (t : Text) : Prop := ∀ u v, t = u ++ '<' :: v → '>' ∈ v

/-- Whether a text goes on with a tag of the main element. -/
def StartsMain (t : Text) : Prop := ∃ mark ∈ ["<main".toList, mainClose], mark <+: t

theorem StartsMain.append (h : StartsMain t) (s : Text) : StartsMain (t ++ s) := by
  obtain ⟨mark, hmark, hstarts⟩ := h
  exact ⟨mark, hmark, hstarts.trans (List.prefix_append t s)⟩

/-- Whether whatever starts like a start tag of the main element or of the body is one, and no tag of the
main element stands inside another tag. -/
structure Plain (t : Text) : Prop where
  starts : ∀ x name y, t = x ++ '<' :: (name ++ y) → name ∈ ["main".toList, "body".toList] →
    ∃ attrs rest, y = attrs ++ '>' :: rest ∧ Attributes attrs
  outside : ∀ x y, t = x ++ y → StartsMain y → NoneOpen x

/-- The tags of the main element are told from others by the first letter of a name, or the slash. -/
theorem not_startsMain {c : Char} (hname : c ≠ 'm') (hslash : c ≠ '/') : ¬ StartsMain ('<' :: c :: t) := by
  have hall : ∀ mark ∈ ["<main".toList, mainClose], ['<', 'm'] <+: mark ∨ ['<', '/'] <+: mark := by decide
  rintro ⟨mark, hmark, hstarts⟩
  rcases hall mark hmark with hletter | hletter
  · exact hname (List.cons_prefix_cons.1 (List.cons_prefix_cons.1 (hletter.trans hstarts)).2).1.symm
  · exact hslash (List.cons_prefix_cons.1 (List.cons_prefix_cons.1 (hletter.trans hstarts)).2).1.symm

theorem attributes_iff {attrs : Text} : Attributes attrs
    ↔ attrs.head?.all (fun c => Text.isBlank c || c == '/') = true ∧ '<' ∉ attrs ∧ '>' ∉ attrs ∧ openMark none attrs = none :=
  ⟨fun h => ⟨h.apart, h.noStart, h.noStop, h.closed⟩, fun h => ⟨h.1, h.2.1, h.2.2.1, h.2.2.2⟩⟩

instance (attrs : Text) : Decidable (Attributes attrs) := decidable_of_iff _ attributes_iff.symm

instance (t : Text) : Decidable (StartsMain t) :=
  inferInstanceAs (Decidable (∃ mark ∈ ["<main".toList, mainClose], mark <+: t))

theorem noneOpen_iff : NoneOpen t ↔ ∀ n ∈ List.range (t.length + 1), ∀ v ∈ Text.after? ['<'] (t.drop n), '>' ∈ v := by
  rw [← Text.forall_split_iff (P := fun _ r => ∀ v ∈ Text.after? ['<'] r, '>' ∈ v)]
  constructor
  · rintro h u r rfl v hv
    exact h u v (by rw [Text.after?_eq_some_iff.1 hv]; rfl)
  · rintro h u v rfl
    exact h u _ rfl v (Text.after?_eq_some_iff.2 rfl)

instance (t : Text) : Decidable (NoneOpen t) := decidable_of_iff _ noneOpen_iff.symm

/-- The attributes of a tag reach up to the first `>`. -/
theorem exists_attributes_iff : (∃ attrs rest, y = attrs ++ '>' :: rest ∧ Attributes attrs)
    ↔ '>' ∈ y ∧ Attributes (y.takeWhile (· ≠ '>')) := by
  have hfirst : ∀ {attrs rest : Text}, '>' ∉ attrs → (attrs ++ '>' :: rest).takeWhile (· ≠ '>') = attrs := by
    intro attrs rest hnot
    have hkept : ∀ c ∈ attrs, (decide (c ≠ '>')) = true := fun c hc => decide_eq_true (ne_of_mem_of_not_mem hc hnot)
    rw [List.takeWhile_append_of_pos hkept]
    simp
  constructor
  · rintro ⟨attrs, rest, rfl, hattrs⟩
    rw [hfirst hattrs.noStop]
    exact ⟨by simp, hattrs⟩
  · rintro ⟨hmem, hattrs⟩
    obtain ⟨attrs, rest, rfl, hnot⟩ := List.eq_append_cons_of_mem hmem
    rw [hfirst hnot] at hattrs
    exact ⟨attrs, rest, rfl, hattrs⟩

theorem plain_iff : Plain t ↔ ∀ n ∈ List.range (t.length + 1),
    (∀ name ∈ ["main".toList, "body".toList], ∀ y ∈ Text.after? ('<' :: name) (t.drop n),
      '>' ∈ y ∧ Attributes (y.takeWhile (· ≠ '>')))
    ∧ (StartsMain (t.drop n) → NoneOpen (t.take n)) := by
  rw [← Text.forall_split_iff (P := fun x r => (∀ name ∈ ["main".toList, "body".toList],
    ∀ y ∈ Text.after? ('<' :: name) r, '>' ∈ y ∧ Attributes (y.takeWhile (· ≠ '>'))) ∧ (StartsMain r → NoneOpen x))]
  constructor
  · rintro h x r rfl
    refine ⟨fun name hname y hy => exists_attributes_iff.1 (h.starts x name y ?_ hname), h.outside x r rfl⟩
    rw [Text.after?_eq_some_iff.1 hy]
    rfl
  · refine fun h => ⟨fun x name y htext hname => exists_attributes_iff.2 ?_, fun x y htext => (h x y htext).2⟩
    exact (h x _ htext).1 name hname y (Text.after?_eq_some_iff.2 rfl)

instance (t : Text) : Decidable (Plain t) := decidable_of_iff _ plain_iff.symm

theorem NoneOpen.suffix (h : NoneOpen (s ++ t)) : NoneOpen t := by
  rintro u v rfl
  exact h (s ++ u) v (List.append_assoc ..).symm

theorem Plain.suffix (h : Plain (s ++ t)) : Plain t where
  starts := by
    rintro x name y rfl hname
    exact h.starts (s ++ x) name y (List.append_assoc ..).symm hname
  outside := by
    rintro x y rfl hmain
    exact (h.outside (s ++ x) y (List.append_assoc ..).symm hmain).suffix

/-- A main tag has a `<` at its front and a `>` at its end, and no other. -/
theorem IsMainTag.exists_cons (h : IsMainTag tag) :
    ∃ y, tag = '<' :: (y ++ ['>']) ∧ '<' ∉ y ∧ '>' ∉ y ∧ StartsMain tag := by
  rcases h with ⟨attrs, rfl, hattrs⟩ | rfl
  · exact ⟨"main".toList ++ attrs, by simp, by simp [hattrs.noStart], by simp [hattrs.noStop],
      "<main".toList, by simp, attrs ++ ['>'], rfl⟩
  · exact ⟨"/main".toList, by decide, by decide, by decide, mainClose, by simp, [], rfl⟩

theorem matches_mainTag : mainTag.Matches before t rest ↔
    (∃ inside, t = "<main".toList ++ (inside ++ ['>']) ∧ '>' ∉ inside) ∨ t = mainClose :=
  matches_or.trans (or_congr matches_tag matches_literal)

theorem IsMainTag.matches (h : IsMainTag tag) : mainTag.Matches before tag rest := by
  refine matches_mainTag.2 (h.imp_left ?_)
  rintro ⟨attrs, rfl, hattrs⟩
  exact ⟨attrs, rfl, hattrs.noStop⟩

/-- Where start tags are plain, what is found as a main tag is one. -/
theorem isMainTag_of_matches (hplain : Plain (tag ++ rest)) (h : mainTag.Matches before tag rest) : IsMainTag tag := by
  refine (matches_mainTag.1 h).imp_left ?_
  rintro ⟨inside, rfl, hinside⟩
  obtain ⟨attrs, rest', hcut, hattrs⟩ := hplain.starts [] "main" (inside ++ '>' :: rest) (by simp) (by simp)
  obtain rfl := Text.eq_of_first hcut hinside hattrs.noStop
  exact ⟨inside, by simp, hattrs⟩

/-- Two main tags at one place are one. -/
theorem IsMainTag.eq_of_matches {rest' : Text} (h : IsMainTag tag) (hmatches : mainTag.Matches before t rest')
    (heq : tag ++ rest = t ++ rest') : t = tag := by
  obtain ⟨y, rfl, -, hy, -⟩ := h.exists_cons
  obtain ⟨y', rfl, hy'⟩ : ∃ y', t = '<' :: (y' ++ ['>']) ∧ '>' ∉ y' := by
    rcases matches_mainTag.1 hmatches with ⟨inside, rfl, hinside⟩ | rfl
    · exact ⟨"main".toList ++ inside, by simp, by simp [hinside]⟩
    · exact ⟨"/main".toList, by decide, by decide⟩
  have hcut : y ++ '>' :: rest = y' ++ '>' :: rest' := by simpa using heq
  rw [Text.eq_of_first hcut hy hy']

/-- So a main tag is found wherever it stands. -/
theorem IsMainTag.exists_matchAt (h : IsMainTag tag) (before : Option Char) (rest : Text) :
    ∃ hit, mainTag.matchAt ⟨before, tag ++ rest⟩ = some hit ∧ hit.text = tag := by
  obtain ⟨hit, hmatch⟩ := matchAt_complete (h.matches : mainTag.Matches before tag rest)
  obtain ⟨rest', htext, haccepts⟩ := matchAt_sound hmatch
  exact ⟨hit, hmatch, h.eq_of_matches ⟨_, haccepts⟩ htext⟩

-- ============================================================================== taking out

/-- What is taken out of a layout at a place: a main tag, or a line that holds nothing but one. -/
def Dropped (before : Option Char) (x : Text) : Prop :=
  IsMainTag x ∨ OnNewLine before ∧ ∃ a tag b e, x = a ++ (tag ++ (b ++ e)) ∧ (∀ c ∈ a, isSpacing c) ∧ IsMainTag tag
    ∧ (∀ c ∈ b, isSpacing c) ∧ newline.Matches none e []

/-- What is left of a text when main tags and their lines are taken out, seen with the character in front
of it. -/
inductive Unwrapped : Option Char → Text → Text → Prop
  | nil (before : Option Char) : Unwrapped before [] []
  | keep (before : Option Char) (c : Char) (t new : Text) (htail : Unwrapped (some c) t new) :
      Unwrapped before (c :: t) (c :: new)
  | drop (before : Option Char) (x t new : Text) (hdropped : Dropped before x)
      (htail : Unwrapped (lastAfter before x) t new) : Unwrapped before (x ++ t) new

/-- What is taken out has one `<`, with white space in front of it and a main tag from there on. -/
theorem Dropped.exists_cut (h : Dropped before x) :
    ∃ a y, x = a ++ '<' :: y ∧ (∀ c ∈ a, isSpacing c) ∧ '<' ∉ y ∧ StartsMain ('<' :: y) := by
  rcases h with h | ⟨-, a, tag, b, e, rfl, ha, htag, hb, he⟩
  · obtain ⟨y, rfl, hy, -, hmain⟩ := h.exists_cons
    exact ⟨[], _, rfl, by simp, by simp [hy], hmain⟩
  · obtain ⟨y, rfl, hy, -, hmain⟩ := htag.exists_cons
    have hb' : '<' ∉ b := fun hmem => absurd (hb _ hmem) (by decide)
    have he' : '<' ∉ e := by
      rcases matches_newline.1 he with rfl | rfl
      · decide
      · decide
    exact ⟨a, y ++ ['>'] ++ (b ++ e), by simp, ha, by simp [hy, hb', he'], hmain.append (b ++ e)⟩

/-- So none of it is in a tag that has no other in it. -/
theorem Dropped.not_in_tag (hs : '<' ∉ s) (h : Dropped before x) : (s ++ ['>']) ++ rest ≠ x ++ t := by
  intro heq
  obtain ⟨a, y, rfl, ha, -⟩ := h.exists_cut
  have hcut : a ++ '<' :: (y ++ t) = (s ++ ['>']) ++ rest := by simpa using heq.symm
  obtain ⟨z, rfl, -⟩ := Text.exists_append_of_notMem hcut (by simpa using hs)
  exact absurd (ha '>' (by simp)) (by decide)

/-- Nor does it reach over a `<` that starts no main tag. -/
theorem Dropped.exists_append (hmain : ¬ StartsMain ('<' :: u)) (h : Dropped before x) (heq : f ++ '<' :: u = x ++ t) :
    ∃ z, f = x ++ z ∧ t = z ++ '<' :: u := by
  rcases List.append_eq_append_iff.1 heq with ⟨z, hx, hz⟩ | ⟨z, hf, hz⟩
  · cases z with
    | nil => exact ⟨[], by simpa using hx.symm, hz.symm⟩
    | cons d z =>
        -- the only `<` of what is taken out would be this one
        obtain ⟨rfl, rfl⟩ := List.cons_eq_cons.1 hz
        obtain ⟨a, y, rfl, ha, hy, hstarts⟩ := h.exists_cut
        have hnone : '<' ∉ a := fun hmem => absurd (ha _ hmem) (by decide)
        obtain ⟨w, -, hw⟩ := Text.exists_append_of_notMem hx.symm hnone
        cases w with
        | nil =>
            obtain ⟨-, rfl⟩ := List.cons_eq_cons.1 hw
            exact absurd (hstarts.append t) hmain
        | cons d w =>
            obtain ⟨-, rfl⟩ := List.cons_eq_cons.1 hw
            exact absurd (by simp) hy
  · exact ⟨z, hf, hz⟩

-- ============================================================================ in two passes

/-- A line that holds a main tag and nothing else. -/
theorem matches_mainLine : mainLine.Matches before t rest ↔ OnNewLine before ∧ ∃ a tag b e, t = a ++ (tag ++ (b ++ e))
    ∧ (∀ c ∈ a, isSpacing c) ∧ mainTag.Matches none tag [] ∧ (∀ c ∈ b, isSpacing c) ∧ newline.Matches none e [] := by
  refine matches_alone.trans (and_congr_right fun _ => ?_)
  simp only [matches_mainTag]

theorem exists_cons_of_mainTag (h : mainTag.Matches before tag rest) : ∃ y, tag = '<' :: y := by
  rcases matches_mainTag.1 h with ⟨inside, rfl, -⟩ | rfl
  · exact ⟨_, rfl⟩
  · exact ⟨_, rfl⟩

/-- No such line starts inside a tag. -/
theorem clear_mainLine (hs : '<' ∉ s) : mainLine.Clear before (s ++ ['>']) rest := by
  refine clear_iff.2 fun u v hsplit hne hstarts => ?_
  obtain ⟨_, r, htext, hmatches⟩ := hstarts
  obtain ⟨-, a, tag, b, e, rfl, ha, htag, -⟩ := matches_mainLine.1 hmatches
  obtain ⟨y, rfl⟩ := exists_cons_of_mainTag htag
  obtain ⟨v, d, rfl⟩ := List.eq_nil_or_concat' v |>.resolve_left hne
  rw [← List.append_assoc] at hsplit
  obtain ⟨rfl, hlast⟩ := List.append_inj' hsplit rfl
  obtain rfl : '>' = d := by simpa using hlast
  have hcut : a ++ '<' :: (y ++ (b ++ e) ++ r) = (v ++ ['>']) ++ rest := by simpa using htext.symm
  have hnone : '<' ∉ v ++ ['>'] := by simpa using fun hmem => hs (List.mem_append_right u hmem)
  obtain ⟨z, rfl, -⟩ := Text.exists_append_of_notMem hcut hnone
  exact absurd (ha '>' (by simp)) (by decide)

/-- Nor behind anything else on a line, so what is left there stood there before. -/
theorem prefix_of_deleteFrom {c : Char} (hc : c ≠ '\n') (hw : '\n' ∉ w) (h : w <+: mainLine.deleteFrom (some c) t) :
    w <+: t := by
  induction w generalizing c t with
  | nil => exact List.nil_prefix
  | cons d w ih =>
      cases t with
      | nil => exact h
      | cons d' t =>
          have hnone : mainLine.matchAt ⟨some c, d' :: t⟩ = none := by
            refine matchAt_eq_none_iff_not_startsAt.2 ?_
            rintro ⟨u, rest, -, hmatches⟩
            exact not_onNewLine hc (matches_mainLine.1 hmatches).1
          have hclear : mainLine.Clear (some c) [d'] t := clear_cons.2 ⟨hnone, clear_nil⟩
          have hcut : mainLine.deleteFrom (some c) (d' :: t) = d' :: mainLine.deleteFrom (some d') t :=
            deleteFrom_of_clear hclear
          rw [hcut] at h
          obtain ⟨rfl, htail⟩ := List.cons_prefix_cons.1 h
          rw [List.mem_cons, not_or] at hw
          exact List.cons_prefix_cons.2 ⟨rfl, ih (Ne.symm hw.1) hw.2 htail⟩

/-- A main tag that is there once the lines are gone was there before. -/
theorem matchAt_mainTag_deleteFrom {c : Char} (hplain : Plain (c :: t))
    (h : mainTag.matchAt ⟨before', c :: t⟩ = none) :
    mainTag.matchAt ⟨before', c :: mainLine.deleteFrom (some c) t⟩ = none := by
  refine matchAt_eq_none_iff_not_startsAt.2 ?_
  rintro ⟨u, r, htext, hmatches⟩
  refine matchAt_eq_none_iff_not_startsAt.1 h ?_
  rcases matches_mainTag.1 hmatches with ⟨inside, rfl, -⟩ | rfl
  · obtain ⟨rfl, hrest⟩ : c = '<' ∧ mainLine.deleteFrom (some c) t = "main".toList ++ (inside ++ ['>'] ++ r) :=
      List.cons_eq_cons.1 (by simpa using htext)
    obtain ⟨y, rfl⟩ := prefix_of_deleteFrom (by decide) (by decide) ⟨_, hrest.symm⟩
    obtain ⟨attrs, rest, rfl, hattrs⟩ := hplain.starts [] "main" y rfl (by simp)
    have htag : IsMainTag ('<' :: ("main".toList ++ (attrs ++ ['>']))) := .inl ⟨attrs, rfl, hattrs⟩
    exact ⟨_, rest, by simp, htag.matches⟩
  · obtain ⟨rfl, hrest⟩ : c = '<' ∧ mainLine.deleteFrom (some c) t = "/main>".toList ++ r :=
      List.cons_eq_cons.1 htext
    obtain ⟨y, rfl⟩ := prefix_of_deleteFrom (by decide) (by decide) ⟨_, hrest.symm⟩
    exact ⟨mainClose, y, rfl, matches_mainTag.2 (.inr rfl)⟩

/-- What both passes together make of a text from a place on, with the characters in front of it in
the one and in the other. -/
def bareFrom (before before' : Option Char) (t : Text) : Text :=
  mainTag.deleteFrom before' (mainLine.deleteFrom before t)

/-- A line of a main tag goes in the first pass. -/
theorem bareFrom_of_line {hit : Hit} (hplain : Plain t) (hline : mainLine.matchAt ⟨before, t⟩ = some hit) :
    ∃ rest, t = hit.text ++ rest ∧ hit.text ≠ [] ∧ Dropped before hit.text
      ∧ bareFrom before before' t = bareFrom (lastAfter before hit.text) before' rest := by
  obtain ⟨rest, rfl, haccepts⟩ := matchAt_sound hline
  obtain ⟨hbefore, a, tag, b, e, hhit, ha, hmain, hb, he⟩ := matches_mainLine.1 ⟨_, haccepts⟩
  obtain ⟨y, rfl⟩ := exists_cons_of_mainTag hmain
  have hne : hit.text ≠ [] := by simp [hhit]
  have htag : IsMainTag ('<' :: y) := by
    have hsplit : hit.text ++ rest = a ++ (('<' :: y) ++ (b ++ e ++ rest)) := by simp [hhit]
    rw [hsplit] at hplain
    exact isMainTag_of_matches hplain.suffix (matches_mainTag.2 (matches_mainTag.1 hmain) : mainTag.Matches none _ _)
  refine ⟨rest, rfl, hne, .inr ⟨hbefore, a, _, b, e, hhit, ha, htag, hb, he⟩, ?_⟩
  rw [bareFrom, deleteFrom_of_hit hline rfl hne]
  rfl

/-- Any other main tag goes in the second. -/
theorem bareFrom_of_tag {hit : Hit} (hplain : Plain t) (hline : mainLine.matchAt ⟨before, t⟩ = none)
    (hmain : mainTag.matchAt ⟨before', t⟩ = some hit) :
    ∃ rest, t = hit.text ++ rest ∧ hit.text ≠ [] ∧ Dropped before hit.text
      ∧ bareFrom before before' t = bareFrom (lastAfter before hit.text) (lastAfter before' hit.text) rest := by
  obtain ⟨rest, rfl, haccepts⟩ := matchAt_sound hmain
  have htag : IsMainTag hit.text := isMainTag_of_matches hplain ⟨_, haccepts⟩
  obtain ⟨y, hy, hnot, -, -⟩ := htag.exists_cons
  have hne : hit.text ≠ [] := by simp [hy]
  have hclear : mainLine.Clear before hit.text rest := by
    rw [hy] at hline ⊢
    exact clear_cons.2 ⟨hline, clear_mainLine hnot⟩
  obtain ⟨hit', hmatch, htext⟩ := htag.exists_matchAt before' (mainLine.deleteFrom (lastAfter before hit.text) rest)
  refine ⟨rest, rfl, hne, .inl htag, ?_⟩
  rw [bareFrom, deleteFrom_of_clear hclear, deleteFrom_of_hit hmatch htext hne]
  rfl

/-- Any other character stays. -/
theorem bareFrom_of_none {c : Char} (hplain : Plain (c :: t)) (hline : mainLine.matchAt ⟨before, c :: t⟩ = none)
    (hmain : mainTag.matchAt ⟨before', c :: t⟩ = none) :
    bareFrom before before' (c :: t) = c :: bareFrom (some c) (some c) t := by
  have hclear : mainLine.Clear before [c] t := clear_cons.2 ⟨hline, clear_nil⟩
  have hclear' : mainTag.Clear before' [c] (mainLine.deleteFrom (some c) t) :=
    clear_cons.2 ⟨matchAt_mainTag_deleteFrom hplain hmain, clear_nil⟩
  have hcut : mainLine.deleteFrom before (c :: t) = c :: mainLine.deleteFrom (some c) t :=
    deleteFrom_of_clear hclear
  rw [bareFrom, hcut]
  exact deleteFrom_of_clear hclear'

/-- In both passes together main tags and their lines are taken out, and every other character is kept. -/
theorem unwrapped_bareFrom (hplain : Plain t) (before before' : Option Char) :
    Unwrapped before t (bareFrom before before' t) := by
  -- on the length: what goes has several characters
  induction hlen : t.length using Nat.strongRecOn generalizing t before before' with
  | ind n ih =>
      have hgone : ∀ {x rest place}, t = x ++ rest → x ≠ [] → Dropped before x →
          bareFrom before before' t = bareFrom (lastAfter before x) place rest →
          Unwrapped before t (bareFrom before before' t) := by
        rintro x rest place rfl hne hdropped heq
        have hpos := List.length_pos_iff.2 hne
        rw [List.length_append] at hlen
        rw [heq]
        exact .drop before x rest _ hdropped (ih rest.length (by omega) hplain.suffix _ _ rfl)
      cases t with
      | nil => exact .nil before
      | cons c t =>
          cases hline : mainLine.matchAt ⟨before, c :: t⟩ with
          | some hit =>
              obtain ⟨rest, htext, hne, hdropped, heq⟩ := bareFrom_of_line hplain hline
              exact hgone htext hne hdropped heq
          | none =>
              cases hmain : mainTag.matchAt ⟨before', c :: t⟩ with
              | some hit =>
                  obtain ⟨rest, htext, hne, hdropped, heq⟩ := bareFrom_of_tag hplain hline hmain
                  exact hgone htext hne hdropped heq
              | none =>
                  rw [List.length_cons] at hlen
                  rw [bareFrom_of_none hplain hline hmain]
                  exact .keep before c _ _ (ih t.length (by omega) (hplain.suffix (s := [c])) _ _ rfl)

theorem unwrapped_withoutMain (hplain : Plain t) : Unwrapped none t (withoutMain t) := by
  rw [withoutMain, delete_eq_deleteFrom, delete_eq_deleteFrom]
  exact unwrapped_bareFrom hplain none none

-- ============================================================================= what is kept

namespace Unwrapped

/-- At a `<` that starts no main tag the texts fall apart alike. -/
theorem split_at (hmain : ¬ StartsMain ('<' :: u)) (h : Unwrapped before (f ++ '<' :: u) new) :
    ∃ f' u', new = f' ++ '<' :: u' ∧ Unwrapped before f f' ∧ Unwrapped (some '<') u u' := by
  generalize htext : f ++ '<' :: u = t at h
  induction h generalizing f with
  | nil before => exact absurd htext (by simp)
  | keep before c t new htail ih =>
      cases f with
      | nil =>
          obtain ⟨rfl, rfl⟩ := List.cons_eq_cons.1 htext
          exact ⟨[], new, rfl, .nil before, htail⟩
      | cons d f =>
          obtain ⟨rfl, hrest⟩ := List.cons_eq_cons.1 htext
          obtain ⟨f', u', rfl, hf, hu⟩ := ih hrest
          exact ⟨d :: f', u', rfl, .keep before d f f' hf, hu⟩
  | drop before x t new hdropped htail ih =>
      obtain ⟨z, rfl, hz⟩ := hdropped.exists_append hmain htext
      obtain ⟨f', u', rfl, hf, hu⟩ := ih hz.symm
      exact ⟨f', u', rfl, .drop before x z f' hdropped hf, hu⟩

/-- A character at which nothing is taken out is kept. -/
theorem split_cons {c : Char} (h : Unwrapped before (c :: t) new)
    (hnone : ∀ x r, Dropped before x → c :: t ≠ x ++ r) :
    ∃ new', new = c :: new' ∧ Unwrapped (some c) t new' := by
  generalize htext : c :: t = s at h
  cases h with
  | nil => cases htext
  | keep _ d s new htail =>
      obtain ⟨rfl, rfl⟩ := List.cons_eq_cons.1 htext
      exact ⟨new, rfl, htail⟩
  | drop _ x s new hdropped htail => exact absurd htext (hnone x s hdropped)

/-- Up to the end of a tag nothing is taken out, if no `<` is in front of it. -/
theorem split_kept (hs : '<' ∉ s) (h : Unwrapped before ((s ++ ['>']) ++ rest) new) :
    ∃ rest', new = (s ++ ['>']) ++ rest' ∧ Unwrapped (some '>') rest rest' := by
  induction s generalizing before new with
  | nil => exact h.split_cons fun x r hdropped => hdropped.not_in_tag hs
  | cons c s ih =>
      obtain ⟨new', rfl, htail⟩ := h.split_cons fun x r hdropped => hdropped.not_in_tag hs
      obtain ⟨rest', rfl, hrest⟩ := ih (fun hmem => hs (List.mem_cons_of_mem _ hmem)) htail
      exact ⟨rest', rfl, hrest⟩

/-- A tag that is no main tag, and has no other in it, is kept in one piece. -/
theorem split_tag (hs : '<' ∉ s) (hmain : ∀ r, ¬ StartsMain ('<' :: (s ++ ['>']) ++ r))
    (h : Unwrapped before (f ++ ('<' :: (s ++ ['>']) ++ rest)) new) :
    ∃ f' rest', new = f' ++ ('<' :: (s ++ ['>']) ++ rest') ∧ Unwrapped before f f'
      ∧ Unwrapped (some '>') rest rest' := by
  obtain ⟨f', u', rfl, hf, hu⟩ := h.split_at (hmain rest)
  obtain ⟨rest', rfl, hrest⟩ := hu.split_kept hs
  exact ⟨f', rest', rfl, hf, hrest⟩

/-- Behind the start of a tag that is still open nothing is taken out. -/
theorem prefix_of_open (hopen : ∀ x y, r ++ t = x ++ y → StartsMain y → NoneOpen x) (hr : '<' ∈ r) (hr' : '>' ∉ r)
    (hw : '>' ∉ w) (h : Unwrapped before t (w ++ z)) : w <+: t := by
  induction w generalizing before r t with
  | nil => exact List.nil_prefix
  | cons c w ih =>
      generalize hnew : (c :: w) ++ z = new at h
      cases h with
      | nil => cases hnew
      | keep _ d t new htail =>
          obtain ⟨rfl, rfl⟩ := List.cons_eq_cons.1 hnew
          rw [List.mem_cons, not_or] at hw
          refine List.cons_prefix_cons.2 ⟨rfl, ih (r := r ++ [c]) ?_ (by simp [hr]) (by simp [hr', hw.1]) hw.2 htail⟩
          intro x y htext
          exact hopen x y (by rw [← htext]; simp)
      | drop _ x t new hdropped htail =>
          obtain ⟨a, y, rfl, ha, -, hmain⟩ := hdropped.exists_cut
          have hnone := hopen (r ++ a) ('<' :: y ++ t) (by simp) (hmain.append t)
          obtain ⟨u, v, rfl⟩ := List.append_of_mem hr
          have hclosed := hnone u (v ++ a) (by simp)
          rcases List.mem_append.1 hclosed with hmem | hmem
          · exact absurd (by simp [hmem]) hr'
          · exact absurd (ha _ hmem) (by decide)

/-- So what starts like a tag is not put together from parts. -/
theorem part_of_part (hopen : ∀ x y, t = x ++ y → StartsMain y → NoneOpen x) (hw : '>' ∉ w)
    (h : Unwrapped before t new) (hpart : '<' :: w <:+: new) : '<' :: w <:+: t := by
  induction h with
  | nil before => exact hpart
  | keep before c t new htail ih =>
      have hlater : ∀ x y, t = x ++ y → StartsMain y → NoneOpen x := by
        rintro x y rfl hmain
        exact NoneOpen.suffix (s := [c]) (hopen (c :: x) y rfl hmain)
      rcases List.infix_cons_iff.1 hpart with hfront | hpart
      · obtain ⟨rfl, z, rfl⟩ := List.cons_prefix_cons.1 hfront
        have hkept : w <+: t := prefix_of_open (r := ['<']) hopen (by simp) (by simp) hw htail
        exact (List.cons_prefix_cons.2 ⟨rfl, hkept⟩).isInfix
      · exact List.infix_cons_iff.2 (.inr (ih hlater hpart))
  | drop before x t new hdropped htail ih =>
      have hlater : ∀ u v, t = u ++ v → StartsMain v → NoneOpen u := by
        rintro u v rfl hmain
        exact (hopen (x ++ u) v (List.append_assoc ..).symm hmain).suffix
      exact (ih hlater hpart).trans (List.suffix_append x t).isInfix

end Unwrapped

-- =============================================================================== the charset

/-- What is put behind the title of a layout without a charset. -/
def charsetTag : Text := "\n    <meta charset=\"utf-8\">"

/-- A charset is declared, or it is put in behind the first title. -/
theorem withCharset_cases (layout : Text) : withCharset layout = layout
    ∨ ∃ x y, layout = x ++ ("</title>".toList ++ y)
      ∧ withCharset layout = x ++ ("</title>".toList ++ (charsetTag ++ y)) := by
  unfold withCharset
  split
  next => exact .inl rfl
  next =>
    cases hcut : Text.cut? "</title>" layout with
    | none =>
        rw [Text.replaceFirst, hcut]
        exact .inl rfl
    | some parts =>
        obtain ⟨x, y⟩ := parts
        refine .inr ⟨x, y, (Text.cut?_eq_some_iff.1 hcut).1, ?_⟩
        rw [Text.replaceFirst_of_cut? hcut]
        rfl

theorem getLast?_title : (x ++ "</title>".toList).getLast? = some '>' := by
  rw [List.getLast?_append]
  rfl

/-- What starts a tag behind the end of a tag, and is not in the charset put in there, does so in front of
the charset or behind it. -/
theorem place_cases (hfront : front.getLast? = some '>') (hw : '>' ∉ w.dropLast) (hhead : w.head? = some '<')
    (hcharset : ¬ w <:+: charsetTag) (hs : w <+: s) (heq : front ++ (charsetTag ++ y) = x ++ s) :
    (∃ z, front = x ++ z ∧ z.getLast? = some '>' ∧ w <+: z ∧ s = z ++ (charsetTag ++ y))
      ∨ ∃ z, x = front ++ (charsetTag ++ z) ∧ y = z ++ s := by
  have hinside : ∀ {z r}, z.getLast? = some '>' → w <+: z ++ r → w <+: z :=
    fun hlast => (Text.prefix_append_iff hw hlast).1
  rcases List.append_eq_append_iff.1 heq with ⟨z, rfl, hz⟩ | ⟨z, rfl, rfl⟩
  · rcases List.append_eq_append_iff.1 hz with ⟨z', rfl, rfl⟩ | ⟨z', hz', rfl⟩
    · exact .inr ⟨z', rfl, rfl⟩
    · cases z' with
      | nil =>
          rw [List.append_nil] at hz'
          exact .inr ⟨[], by rw [hz']; simp, rfl⟩
      | cons c z' =>
          have hlast : (c :: z').getLast? = some '>' := by
            have hend : charsetTag.getLast? = some '>' := by decide
            rw [hz', List.getLast?_append_cons] at hend
            exact hend
          refine absurd ((hinside hlast hs).isInfix.trans ?_) hcharset
          rw [hz']
          exact (List.suffix_append z (c :: z')).isInfix
  · cases z with
    | nil =>
        obtain ⟨r, hr⟩ := hs
        obtain ⟨w, rfl⟩ : ∃ w', w = '<' :: w' := by
          cases w with
          | nil => cases hhead
          | cons c w => exact ⟨w, by rw [Option.some.inj hhead]⟩
        cases (List.cons_eq_cons.1 hr).1
    | cons c z =>
        have hlast : (c :: z).getLast? = some '>' := by
          rw [List.getLast?_append_cons] at hfront
          exact hfront
        exact .inl ⟨c :: z, rfl, hlast, hinside hlast hs, rfl⟩

/-- Behind the end of a tag none is open that was not open before. -/
theorem NoneOpen.behind (hs : s.getLast? = some '>') (h : NoneOpen t) : NoneOpen (s ++ t) := by
  intro u v htext
  rcases List.append_eq_append_iff.1 htext with ⟨z, -, hz⟩ | ⟨z, rfl, hz⟩
  · exact h z v hz
  · cases z with
    | nil => exact h [] v hz.symm
    | cons c z =>
        obtain ⟨rfl, rfl⟩ := List.cons_eq_cons.1 hz
        rw [List.getLast?_append_cons] at hs
        have hmem : '>' ∈ z := by simpa using List.mem_of_getLast? hs
        exact List.mem_append_left t hmem

/-- A layout stays plain when the charset is put in. -/
theorem Plain.withCharset (h : Plain layout) : Plain (withCharset layout) := by
  rcases withCharset_cases layout with hsame | ⟨x, y, rfl, hnew⟩
  · rwa [hsame]
  · have hfront : (x ++ "</title>".toList).getLast? = some '>' := getLast?_title
    rw [hnew, ← List.append_assoc]
    rw [← List.append_assoc] at h
    generalize x ++ "</title>".toList = front at h hfront
    constructor
    · intro x' name y' htext hname
      have hall : ∀ name ∈ ["main".toList, "body".toList],
          '>' ∉ '<' :: name ∧ ¬ '<' :: name <:+: charsetTag := by decide
      obtain ⟨hnot, hcharset⟩ := hall name hname
      have hnot' : '>' ∉ ('<' :: name).dropLast := fun hmem => hnot (List.dropLast_subset _ hmem)
      have hstarts : '<' :: name <+: '<' :: (name ++ y') := ⟨y', rfl⟩
      rcases place_cases hfront hnot' rfl hcharset hstarts htext with ⟨_, rfl, hlast, ⟨z, rfl⟩, hz⟩ | ⟨z, rfl, rfl⟩
      · -- the tag ends in front of the charset
        obtain ⟨attrs, rest, hcut, hattrs⟩ := h.starts x' name (z ++ y) (by simp) hname
        have hmem : '>' ∈ z := (List.mem_append.1 (List.mem_of_getLast? hlast)).resolve_left hnot
        obtain ⟨u, v, rfl, hu⟩ := List.eq_append_cons_of_mem hmem
        rw [List.append_assoc, List.cons_append] at hcut
        obtain rfl := Text.eq_of_first hcut hu hattrs.noStop
        exact ⟨u, v ++ (charsetTag ++ y), by simpa using hz, hattrs⟩
      · exact h.starts (front ++ z) name y' (by simp) hname
    · rintro x' y' htext ⟨mark, hmark, hstarts⟩
      have hall : ∀ mark ∈ ["<main".toList, mainClose],
          '>' ∉ mark.dropLast ∧ mark.head? = some '<' ∧ ¬ mark <:+: charsetTag := by decide
      obtain ⟨hnot, hhead, hcharset⟩ := hall mark hmark
      rcases place_cases hfront hnot hhead hcharset hstarts htext with ⟨z, rfl, -, hz, -⟩ | ⟨z, rfl, rfl⟩
      · exact h.outside x' (z ++ y) (List.append_assoc ..) ⟨mark, hmark, hz.trans (List.prefix_append z y)⟩
      · have hnone := h.outside (front ++ z) y' (by simp) ⟨mark, hmark, hstarts⟩
        exact (hnone.suffix.behind (by decide : charsetTag.getLast? = some '>')).behind hfront

/-- What lies in a layout, as part of a tag, does so with the charset. -/
theorem infix_withCharset (hne : w ≠ []) (hw : '>' ∉ w.dropLast) (h : w <:+: layout) : w <:+: withCharset layout := by
  rcases withCharset_cases layout with hsame | ⟨x, y, rfl, hnew⟩
  · rwa [hsame]
  · rw [← List.append_assoc, Text.infix_append_iff hne hw getLast?_title] at h
    rw [hnew, ← List.append_assoc, Text.infix_append_iff hne hw getLast?_title]
    exact h.imp_right fun hback => hback.trans (List.suffix_append charsetTag y).isInfix

-- ============================================================================ put around

/-- Whether a text is another one with the end of the main element and the footer put in behind a yield tag. -/
def Closes (t t' : Text) : Prop := ∃ p q, t = p ++ (yieldTag ++ q) ∧ t' = p ++ (yieldTag ++ (closed ++ q))

/-- What a layout is with the shell in it: its first start tag of the body is left in one piece, with the header
and the start of the main element right behind it. In front of it and behind it main tags and their lines are taken
out, and the end of the main element and the footer are put in behind a yield tag. -/
def Framed (titled new : Text) : Prop :=
  ∃ front tag back front' back', titled = front ++ (tag ++ back) ∧ IsStartTag "body" tag ∧ ¬ "<body".toList <:+: front
    ∧ Unwrapped none front front' ∧ Unwrapped (some '>') back back'
    ∧ ((∃ back'', Closes back' back'' ∧ new = front' ++ (tag ++ (opened ++ back'')))
      ∨ ∃ front'', Closes front' front'' ∧ new = front'' ++ (tag ++ (opened ++ back')))

theorem IsStartTag.isBodyTag (h : IsStartTag "body" tag) : IsBodyTag tag := by
  obtain ⟨attrs, rfl, hattrs⟩ := h
  exact ⟨attrs, rfl, hattrs.noStop⟩

/-- A start tag of the body has a `<` at its front and a `>` at its end, and no other, and a `b` in between. -/
theorem IsStartTag.exists_cons (h : IsStartTag "body" tag) :
    ∃ s, tag = '<' :: ('b' :: s ++ ['>']) ∧ '<' ∉ s ∧ '>' ∉ s := by
  obtain ⟨attrs, rfl, hattrs⟩ := h
  exact ⟨"ody".toList ++ attrs, by simp, by simp [hattrs.noStart], by simp [hattrs.noStop]⟩

/-- A plain layout with a start of the body in it has a first start tag of the body. -/
theorem Plain.exists_body (h : Plain t) (hbody : "<body".toList <:+: t) :
    ∃ front tag back, t = front ++ (tag ++ back) ∧ IsStartTag "body" tag ∧ ¬ "<body".toList <:+: front := by
  obtain ⟨⟨front, rest⟩, hcut⟩ := Option.isSome_iff_exists.1 (Text.contains_iff.2 hbody)
  have hfirst := Text.not_infix_of_cut? (by decide) hcut
  obtain ⟨rfl, -⟩ := Text.cut?_eq_some_iff.1 hcut
  obtain ⟨attrs, back, rfl, hattrs⟩ := h.starts front "body" rest rfl (by simp)
  exact ⟨front, _, back, by simp, ⟨attrs, rfl, hattrs⟩, hfirst⟩

/-- The first yield tag of a text. -/
theorem exists_behindYield (h : yieldTag <:+: t) : ∃ behind, BehindYield t behind := by
  obtain ⟨⟨front, behind⟩, hcut⟩ := Option.isSome_iff_exists.1 (Text.contains_iff.2 h)
  exact ⟨behind, front, (Text.cut?_eq_some_iff.1 hcut).1, Text.not_infix_of_cut? (by decide) hcut⟩

/-- A yield tag is left where main tags and their lines are taken out. -/
theorem Unwrapped.yieldTag_infix (h : Unwrapped before t new) (hyield : yieldTag <:+: t) : yieldTag <:+: new := by
  obtain ⟨p, q, rfl⟩ := hyield
  have hparts : yieldTag = '<' :: ('%' :: "= yield %".toList ++ ['>']) := rfl
  have hmain : ∀ r, ¬ StartsMain ('<' :: ('%' :: "= yield %".toList ++ ['>']) ++ r) :=
    fun _ => not_startsMain (by decide) (by decide)
  rw [List.append_assoc, hparts] at h
  obtain ⟨p', q', rfl, -, -⟩ := h.split_tag (by decide) hmain
  exact ⟨p', q', by rw [hparts]; simp⟩

/-- A yield tag that ends in front of the end of a body tag does so in front of all of that tag. -/
theorem exists_append_of_yieldTag (htag : IsStartTag "body" tag) (hyield : yieldTag <:+ x)
    (heq : front ++ tag = x ++ y) :
    ∃ z, front = x ++ z ∧ y = z ++ tag := by
  obtain ⟨s, rfl, hs, -⟩ := htag.exists_cons
  rcases List.append_eq_append_iff.1 heq with ⟨z, rfl, hz⟩ | ⟨z, rfl, rfl⟩
  · cases z with
    | nil => exact ⟨[], by simp, hz.symm⟩
    | cons c z =>
        -- else it would be the start of the tag, up to the first `<` from its end on
        obtain ⟨rfl, hstart⟩ : '<' = c ∧ 'b' :: s ++ ['>'] = z ++ y := List.cons_eq_cons.1 hz
        obtain ⟨m, hm⟩ := hyield
        have hnot : '<' ∉ z := by
          have hmem : '<' ∉ 'b' :: s ++ ['>'] := by simp [hs]
          rw [hstart, List.mem_append, not_or] at hmem
          exact hmem.1
        have hlast : (m ++ ['<']) ++ "%= yield %>".toList = (front ++ ['<']) ++ z := by
          rw [List.append_assoc, List.append_assoc]
          exact hm
        obtain ⟨-, rfl⟩ := Text.append_inj_of_span_right (P := (· ≠ '<')) hlast (by decide)
          (fun c hc => decide_eq_true (ne_of_mem_of_not_mem hc hnot)) (by simp) (by simp)
        cases (List.cons_eq_cons.1 hstart).1
  · exact ⟨z, rfl, rfl⟩

/-- A plain layout without a main element gets the shell around it. -/
theorem framed_shelled (hplain : Plain t) (hbody : "<body".toList <:+: t) (hyield : yieldTag <:+: t) :
    Framed t (shelled (withoutMain t)) := by
  obtain ⟨front, tag, back, rfl, htag, hfirst⟩ := hplain.exists_body hbody
  have hbare := unwrapped_withoutMain hplain
  generalize withoutMain (front ++ (tag ++ back)) = bare at hbare ⊢
  obtain ⟨behind, hbehind⟩ := exists_behindYield (hbare.yieldTag_infix hyield)
  obtain ⟨front', back', rfl, hf, hb⟩ : ∃ front' back', bare = front' ++ (tag ++ back')
      ∧ Unwrapped none front front' ∧ Unwrapped (some '>') back back' := by
    obtain ⟨s, rfl, hs, -⟩ := htag.exists_cons
    exact hbare.split_tag (by simp [hs]) fun _ => not_startsMain (by decide) (by decide)
  have hopen : ∀ x y, front = x ++ y → StartsMain y → NoneOpen x := by
    rintro x y rfl hmain
    exact hplain.outside x (y ++ (tag ++ back)) (by simp) (hmain.append _)
  have hfirst' : ¬ "<body".toList <:+: front' := fun h => hfirst (hf.part_of_part hopen (by decide) h)
  refine ⟨front, tag, back, front', back', rfl, htag, hfirst, hf, hb, ?_⟩
  rcases shelled_cases ⟨front', tag, rfl, htag.isBodyTag, hfirst'⟩ hbehind with
    ⟨p, q, hcut, rfl, ⟨m, rfl⟩, hshelled⟩ | ⟨p, q, hcut, rfl, hp, hshelled⟩
  · rw [← List.append_assoc] at hcut
    obtain rfl := List.append_cancel_right hcut
    refine .inl ⟨m ++ (yieldTag ++ (closed ++ behind)), ⟨m, behind, by simp, rfl⟩, ?_⟩
    rw [hshelled]
    simp
  · rw [← List.append_assoc, ← List.append_assoc] at hcut
    obtain ⟨z, rfl, rfl⟩ := exists_append_of_yieldTag htag hp (List.append_cancel_right hcut)
    obtain ⟨m, rfl⟩ := hp
    refine .inr ⟨m ++ (yieldTag ++ (closed ++ z)), ⟨m, z, by simp, rfl⟩, ?_⟩
    rw [hshelled]
    simp

/-- The shell damages no other markup: a plain layout with a body and a yield tag that has no header yet is
left as it is but for the charset, main tags with their lines and the shell. -/
theorem insert_keeps_markup (hplain : Plain layout) (hbody : "<body".toList <:+: layout)
    (hyield : yieldTag <:+: layout) :
    insert layout = .ok none ∧ headerTag <:+: layout
      ∨ ∃ titled new, insert layout = .ok (some new) ∧ Framed titled new
        ∧ (titled = layout ∨ ∃ x y, layout = x ++ ("</title>".toList ++ y)
          ∧ titled = x ++ ("</title>".toList ++ (charsetTag ++ y))) := by
  by_cases hheader : headerTag <:+: layout
  · exact .inl ⟨insert_of_header hheader, hheader⟩
  · have hoccurs : bodyStart.occursIn layout = true := by
      obtain ⟨front, tag, back, rfl, htag, -⟩ := hplain.exists_body hbody
      obtain ⟨s, hs, -⟩ := htag.exists_cons
      exact occursIn_of_startsAt ⟨tag, back, rfl, matches_bodyStart.2 htag.isBodyTag⟩ (by simp [hs])
    rw [← Text.contains_iff, Bool.not_eq_true] at hheader
    exact .inr ⟨_, _, insert_of_anchors hheader hoccurs (Text.contains_iff.2 hyield),
      framed_shelled hplain.withCharset (infix_withCharset (by decide) (by decide) hbody)
        (infix_withCharset (by decide) (by decide) hyield), withCharset_cases layout⟩

/-- A plain layout without a charset, with a main element of its own. -/
def titledPage : Text :=
  "<title>A</title>\n<body class=\"app\">\n  <main id=\"m\">\n<%= yield %></main>\n</body>\n"

theorem insert_keeps_markup_titled : Plain titledPage ∧ "<body".toList <:+: titledPage ∧ yieldTag <:+: titledPage
    ∧ ∃ titled new, insert titledPage = .ok (some new) ∧ Framed titled new
      ∧ (titled = titledPage ∨ ∃ x y, titledPage = x ++ ("</title>".toList ++ y)
        ∧ titled = x ++ ("</title>".toList ++ (charsetTag ++ y))) := by
  have hplain : Plain titledPage := by decide +kernel
  have hbody : "<body".toList <:+: titledPage := by decide +kernel
  have hyield : yieldTag <:+: titledPage := by decide +kernel
  have hheader : ¬ headerTag <:+: titledPage := by decide +kernel
  refine ⟨hplain, hbody, hyield, ?_⟩
  exact (insert_keeps_markup hplain hbody hyield).resolve_left fun h => hheader h.2

/-- A layout whose main tags have lines to themselves. -/
def lone : Text := "<body>\n<main>\n<%= yield %>\n</main>\n</body>\n"

/-- These lines go with the tags, so more goes than main tags alone. -/
theorem insert_lone : insert lone = .ok (some (shelled "<body>\n<%= yield %>\n</body>\n"))
    ∧ mainTag.delete lone = "<body>\n\n<%= yield %>\n\n</body>\n".toList
    ∧ shelled "<body>\n<%= yield %>\n</body>\n" ≠ shelled (mainTag.delete lone) := by
  refine ⟨?_, ?_, ?_⟩
  all_goals decide +kernel

end SiteScaffold.Patch.Shell

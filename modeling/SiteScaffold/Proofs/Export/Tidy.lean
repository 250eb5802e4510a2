/-
Tidy pages: every value of a link is closed on the line it opens on, and every tag with a
token stands alone on its line. What the export does to a page keeps it tidy: no stretch
that it swaps for another one reaches over the end of a line, and none makes a link or a tag
where there was none (`LinksClosed.edited`, `TagsAlone.edited`).

This module shows it of relocation (`tidy_rewrite`); the rules for links follow in the next.
Whether a page is tidy can be read off its places (`linksClosed_iff`, `tagsAlone_iff`).
-/
import SiteScaffold.Proofs.Export.Relocation
import SiteScaffold.Proofs.Text.Edited

namespace SiteScaffold.Export.Html

open Text (Edited EndsLine isBlank)

variable {R : Text → Text → Prop} {a a' b b' l m new page t : Text} {xs : List Text}
  {folder : Text} {kept : Text → Prop}

-- ========================================================================= lines

/-- What a link starts with, up to its value. -/
def opening : Text := "href=".toList ++ ['"']

/-- A value ends at a quotation mark on this line. -/
def ClosesOnLine (t : Text) : Prop := ∃ v r, t = v ++ '"' :: r ∧ '"' ∉ v ∧ '\n' ∉ v

/-- The line so far is blank. -/
def EndsBlankLine (t : Text) : Prop := ∃ front ws, t = front ++ ws ∧ EndsLine front ∧ ∀ c ∈ ws, isBlank c

/-- The rest of the line is blank. -/
def StartsBlankLine (t : Text) : Prop :=
  ∃ ws rest, t = ws ++ rest ∧ (∀ c ∈ ws, isBlank c) ∧ (rest = [] ∨ ∃ s, rest = '\n' :: s)

/-- What tags with tokens start with. -/
def tagLeads : List Text :=
  ["param", "token"].map fun kind : String =>
    "<meta".toList ++ ' ' :: ("name=".toList ++ '"' :: ("csrf-".toList ++ kind.toList ++ ['"']))

/-- A tag with a token. -/
def IsTag (tag : Text) : Prop := ∃ l ∈ tagLeads, ∃ m, tag = l ++ (m ++ ['>']) ∧ '>' ∉ m

/-- Every value of a link is closed on the line it opens on. -/
def LinksClosed (page : Text) : Prop := ∀ a b, page = a ++ (opening ++ b) → ClosesOnLine b

/-- Every tag with a token stands alone on its line. -/
def TagsAlone (page : Text) : Prop :=
  ∀ a tag b, page = a ++ (tag ++ b) → IsTag tag → EndsBlankLine a ∧ StartsBlankLine b

/-- A page on which links and tags respect the lines. -/
structure Tidy (page : Text) : Prop where
  links : LinksClosed page
  tags : TagsAlone page

theorem LinksClosed.suffix (h : LinksClosed (a ++ t)) : LinksClosed t := by
  rintro u b rfl
  exact h (a ++ u) b (List.append_assoc ..).symm

theorem isBlank_newline : isBlank '\n' = true := by decide

/-- A text that starts with a blank line is empty or starts with a blank. -/
theorem StartsBlankLine.head (h : StartsBlankLine t) : ∀ c ∈ t.head?, isBlank c := by
  obtain ⟨ws, rest, rfl, hws, hrest⟩ := h
  intro c hc
  cases ws with
  | cons d ws =>
      obtain rfl : d = c := Option.some.inj hc
      exact hws d (List.mem_cons_self ..)
  | nil =>
      rcases hrest with rfl | ⟨s, rfl⟩
      · cases hc
      · obtain rfl : '\n' = c := Option.some.inj hc
        exact isBlank_newline

/-- A text that ends with a blank line is empty or ends with a blank. -/
theorem EndsBlankLine.last (h : EndsBlankLine t) : t = [] ∨ ∃ s c, t = s ++ [c] ∧ isBlank c := by
  obtain ⟨front, ws, rfl, hfront, hws⟩ := h
  rcases List.eq_nil_or_concat' ws with rfl | ⟨ws, c, rfl⟩
  · rw [List.append_nil]
    rcases hfront with rfl | ⟨s, rfl⟩
    · exact .inl rfl
    · exact .inr ⟨s, '\n', rfl, isBlank_newline⟩
  · exact .inr ⟨front ++ ws, c, by simp, hws c (by simp)⟩

/-- A line is not blank up to a place that something on it stands before. -/
theorem not_endsBlankLine_concat {c : Char} (hc : c ≠ '\n')
    (h : isBlank c = false ∨ ¬ EndsBlankLine t) : ¬ EndsBlankLine (t ++ [c]) := by
  rintro ⟨front, ws, htext, hfront, hws⟩
  rcases List.eq_nil_or_concat' ws with rfl | ⟨ws, d, rfl⟩
  · rw [List.append_nil] at htext
    rcases hfront with rfl | ⟨s, rfl⟩
    · simp at htext
    · obtain ⟨-, hlast⟩ := List.append_inj' htext rfl
      exact hc (List.cons_eq_cons.1 hlast).1
  · rw [← List.append_assoc] at htext
    obtain ⟨rfl, hlast⟩ := List.append_inj' htext rfl
    obtain rfl : c = d := (List.cons_eq_cons.1 hlast).1
    rcases h with hblank | hnot
    · have hd := hws c (by simp)
      rw [hblank] at hd
      cases hd
    · exact hnot ⟨front, ws, rfl, hfront, fun e he => hws e (by simp [he])⟩

-- ========================================================================= edits

/-- Swaps that respect lines and tags: a swapped stretch lies on one line, blanks do not
stand at its ends, and it ends in no bracket and gains none. -/
structure Tame (R : Text → Text → Prop) : Prop where
  head : ∀ x y, R x y → ∃ c r, x = c :: r ∧ ¬ isBlank c
  last : ∀ x y, R x y → ∃ r e, x = r ++ [e] ∧ ¬ isBlank e
  last_ne : ∀ x y, R x y → x.getLast? ≠ some '>'
  newline : ∀ x y, R x y → '\n' ∉ x
  bracket : ∀ x y, R x y → '>' ∈ y → '>' ∈ x

theorem EndsBlankLine.edited (hR : Tame R) (h : Edited R a a') (ha : EndsBlankLine a) :
    EndsBlankLine a' := by
  obtain ⟨front, ws, rfl, hfront, hws⟩ := ha
  obtain ⟨front', rfl, hedit⟩ := h.split_back (P := (isBlank ·)) hR.last hws
  refine ⟨front', ws, rfl, ?_, hws⟩
  rcases hfront with rfl | ⟨s, rfl⟩
  · exact .inl (Edited.eq_of_last (P := (isBlank ·)) hR.last (by simp) hedit)
  · obtain ⟨s', rfl, -⟩ := hedit.split_back (P := (isBlank ·)) hR.last (by simp [isBlank_newline])
    exact .inr ⟨s', rfl⟩

theorem StartsBlankLine.edited (hR : Tame R) (h : Edited R b b') (hb : StartsBlankLine b) :
    StartsBlankLine b' := by
  obtain ⟨ws, rest, rfl, hws, hrest⟩ := hb
  obtain ⟨rest', rfl, hedit⟩ := h.split_front (P := (isBlank ·)) hR.head hws
  refine ⟨ws, rest', rfl, hws, ?_⟩
  rcases hrest with rfl | ⟨s, rfl⟩
  · exact .inl (Edited.eq_of_last (P := (isBlank ·)) hR.last (by simp) hedit)
  · have hsplit : Edited R (['\n'] ++ s) rest' := hedit
    obtain ⟨s', rfl, -⟩ := hsplit.split_front (P := (isBlank ·)) hR.head (by simp [isBlank_newline])
    exact .inr ⟨s', rfl⟩

/-- A stretch of a line that ends in no blank is not the start of a blank line. -/
theorem not_startsBlankLine {z : Text} {e : Char} (hline : '\n' ∉ z ++ [e]) (he : ¬ isBlank e) :
    ¬ StartsBlankLine (z ++ [e] ++ t) := by
  rintro ⟨ws, rest, htext, hws, hrest⟩
  have hnot : e ∉ ws := fun hmem => he (hws e hmem)
  have hcut : z ++ e :: t = ws ++ rest := by simpa using htext
  obtain ⟨y, rfl, rfl⟩ := Text.exists_append_of_notMem hcut hnot
  rcases hrest with hnil | ⟨s, hs⟩
  · simp at hnil
  · cases y with
    | nil =>
        obtain ⟨rfl, -⟩ := List.cons_eq_cons.1 hs
        simp at hline
    | cons d y =>
        obtain ⟨rfl, -⟩ := List.cons_eq_cons.1 hs
        simp at hline

/-- A tag's closing bracket that the rest of the line is blank after is in no swapped
stretch. -/
theorem Tame.split_bracket (hR : Tame R) (h : Edited R (m ++ '>' :: b) new)
    (hb : StartsBlankLine b) :
    ∃ m' b', new = m' ++ '>' :: b' ∧ Edited R m m' ∧ Edited R b b' := by
  generalize hold : m ++ '>' :: b = old at h
  induction h generalizing m with
  | nil => simp at hold
  | plain c t new htail ih =>
      cases m with
      | nil =>
          obtain ⟨rfl, rfl⟩ := List.cons_eq_cons.1 hold
          exact ⟨[], new, rfl, .nil, htail⟩
      | cons d m =>
          obtain ⟨rfl, htext⟩ := List.cons_eq_cons.1 hold
          obtain ⟨m', b', rfl, hm, hedit⟩ := ih htext
          exact ⟨d :: m', b', rfl, .plain d _ _ hm, hedit⟩
  | swap x y t new hswap htail ih =>
      rcases List.append_eq_append_iff.1 hold with ⟨z, rfl, hz⟩ | ⟨z, rfl, ht⟩
      · cases z with
        | nil =>
            obtain ⟨m', b', rfl, hm, hedit⟩ := ih (m := []) (by simpa using hz)
            refine ⟨y ++ m', b', (List.append_assoc ..).symm, ?_, hedit⟩
            rw [List.append_nil] at hswap
            exact (List.append_nil m) ▸ .swap m y [] m' hswap hm
        | cons c z =>
            obtain ⟨rfl, rfl⟩ := List.cons_eq_cons.1 hz
            -- the bracket would stand inside the stretch
            rcases List.eq_nil_or_concat' z with rfl | ⟨w, e, rfl⟩
            · exact absurd (by simp) (hR.last_ne _ _ hswap)
            · have hline := hR.newline _ _ hswap
              obtain ⟨r, e', hr, he⟩ := hR.last _ _ hswap
              rw [List.append_cons, ← List.append_assoc] at hr
              obtain ⟨-, hlast⟩ := List.append_inj' hr rfl
              obtain rfl : e = e' := (List.cons_eq_cons.1 hlast).1
              refine absurd hb (not_startsBlankLine (fun hmem => hline ?_) he)
              exact List.mem_append_right _ (List.mem_cons_of_mem _ hmem)
      · obtain ⟨m', b', rfl, hm, hedit⟩ := ih ht.symm
        exact ⟨y ++ m', b', (List.append_assoc ..).symm, .swap x y z m' hswap hm, hedit⟩

/-- Tame swaps keep tags alone on their lines if each tag that starts in the new text
starts in the old one. -/
theorem TagsAlone.edited (hR : Tame R)
    (hback : ∀ l ∈ tagLeads, ∀ a' s', new = a' ++ (l ++ s') →
      ∃ a s, t = a ++ (l ++ s) ∧ Edited R a a' ∧ Edited R s s')
    (h : TagsAlone t) : TagsAlone new := by
  rintro a' tag b' htext ⟨l, hl, m', rfl, hm'⟩
  obtain ⟨a, s, rfl, ha, hs⟩ := hback l hl a' (m' ++ '>' :: b') (by simpa using htext)
  have hmem : '>' ∈ s := hs.mem hR.bracket (by simp)
  obtain ⟨m, b, rfl, hm⟩ := List.eq_append_cons_of_mem hmem
  obtain ⟨hfront, hrest⟩ := h a (l ++ (m ++ ['>'])) b (by simp) ⟨l, hl, m, rfl, hm⟩
  obtain ⟨m'', b'', hcut, hedit, hb⟩ := hR.split_bracket hs hrest
  have hm'' : '>' ∉ m'' := fun hmem => hm (hedit.mem hR.bracket hmem)
  obtain rfl := Text.eq_of_first hcut hm' hm''
  obtain ⟨-, rfl⟩ := List.cons_eq_cons.1 (List.append_cancel_left hcut)
  exact ⟨hfront.edited hR ha, hrest.edited hR hb⟩

-- ==================================================================== relocation

/-- What a rule for references swaps: a lead before a file name for the folder. -/
def Moved (xs : List Text) (folder x y : Text) : Prop :=
  ∃ l name, IsLead l ∧ IsFileName xs name ∧ x = l ++ name ∧ y = folder ++ name

theorem Relocated.edited (h : Relocated kept xs folder t new) : Edited (Moved xs folder) t new := by
  induction h with
  | nil => exact .nil
  | plain c t new hkept htail ih => exact .plain c t new ih
  | moved l name t new hlead hname htail ih =>
      rw [← List.append_assoc, ← List.append_assoc]
      exact .swap _ _ t new ⟨l, name, hlead, hname, rfl, rfl⟩ ih

theorem not_isBlank_of_inPath {c : Char} (h : inPath c) : ¬ isBlank c := by
  simp only [inPath, Bool.and_eq_true, Bool.not_eq_true'] at h
  simp [h.1]

theorem ne_quote_of_inPath {c : Char} (h : inPath c) : c ≠ '"' := by
  rintro rfl
  exact absurd h (by decide)

theorem ne_newline_of_inPath {c : Char} (h : inPath c) : c ≠ '\n' := by
  rintro rfl
  exact absurd h (by decide)

theorem IsLead.inPath {l : Text} (h : IsLead l) : ∀ c ∈ l, inPath c := by
  obtain ⟨d, k, rfl, hd, hk⟩ := h.ends
  intro c hc
  rcases List.mem_cons.1 hc with rfl | hc
  · exact hd
  · rcases List.mem_append.1 hc with hc | hc
    · exact hk c hc
    · obtain rfl := List.mem_singleton.1 hc
      decide

theorem inPath_folder (hfolder : IsFolder folder) : ∀ c ∈ folder, inPath c ∧ c ≠ '>' := by
  have hnames : ∀ d ∈ folderNames, ∀ c ∈ "assets/".toList ++ (d ++ ['/']), inPath c ∧ c ≠ '>' := by
    decide
  obtain ⟨d, hd, rfl⟩ := hfolder
  exact hnames d hd

/-- A file name ends in a character of a word. -/
theorem IsFileName.last {extension : Pattern} {name : Text} (hext : Lists extension xs)
    (h : IsFileName xs name) : ∃ r e, name = r ++ [e] ∧ Text.isWord e := by
  obtain ⟨stem, x, rfl, -, -, hx⟩ := h
  obtain ⟨r, e, rfl⟩ := List.eq_nil_or_concat' x |>.resolve_left (hext.ne_nil x hx)
  exact ⟨stem ++ '.' :: r, e, by simp, (hext.inside _ hx e (by simp)).1⟩

section moved

variable {extension : Pattern} (hfolder : IsFolder folder) (hext : Lists extension xs)

include hext in
theorem inPath_moved {x y : Text} (h : Moved xs folder x y) : ∀ c ∈ x, inPath c := by
  obtain ⟨l, name, hlead, hname, rfl, rfl⟩ := h
  intro c hc
  rcases List.mem_append.1 hc with hc | hc
  · exact hlead.inPath c hc
  · exact inPath_of_inName (hname.inName hext c hc)

include hfolder hext in
theorem inPath_moved' {x y : Text} (h : Moved xs folder x y) : ∀ c ∈ y, inPath c := by
  obtain ⟨l, name, hlead, hname, rfl, rfl⟩ := h
  intro c hc
  rcases List.mem_append.1 hc with hc | hc
  · exact (inPath_folder hfolder c hc).1
  · exact inPath_of_inName (hname.inName hext c hc)

include hfolder hext in
theorem tame_moved : Tame (Moved xs folder) where
  head := by
    rintro _ _ ⟨l, name, hlead, -, rfl, rfl⟩
    obtain ⟨c, k, rfl, hc, -⟩ := hlead.ends
    exact ⟨c, _, rfl, not_isBlank_of_inPath hc⟩
  last := by
    rintro _ _ ⟨l, name, -, hname, rfl, rfl⟩
    obtain ⟨r, e, rfl, he⟩ := hname.last hext
    refine ⟨l ++ r, e, (List.append_assoc ..).symm, fun hblank => ?_⟩
    rw [Text.not_isWord_of_isBlank hblank] at he
    cases he
  last_ne := by
    rintro _ _ ⟨l, name, -, hname, rfl, rfl⟩ hlast
    obtain ⟨r, e, rfl, he⟩ := hname.last hext
    rw [← List.append_assoc, List.getLast?_concat] at hlast
    obtain rfl := Option.some.inj hlast
    exact absurd he (by decide)
  newline := fun x y h hmem => absurd rfl (ne_newline_of_inPath (inPath_moved hext h _ hmem))
  bracket := by
    rintro _ _ ⟨l, name, -, -, rfl, rfl⟩ hmem
    rcases List.mem_append.1 hmem with hmem | hmem
    · exact absurd rfl (inPath_folder hfolder _ hmem).2
    · exact List.mem_append_right _ hmem

include hfolder in
/-- Every folder has a slash, so a text without one is as it was. -/
theorem eq_of_moved (h : Edited (Moved xs folder) t new) (hnew : '/' ∉ new) : t = new := by
  refine h.eq_of_notMem ?_ hnew
  rintro _ _ ⟨l, name, -, -, rfl, rfl⟩
  obtain ⟨d, -, rfl⟩ := hfolder
  simp

include hfolder in
/-- A new text that ends in a word ended in it before, if the word could not start in an
extension. -/
theorem split_word {c : Char} {u : Text} (hslash : '/' ∉ c :: u) (hdot : '.' ∉ c :: u)
    (hc : ∀ x ∈ xs, c ∉ x) (h : Edited (Moved xs folder) t (a' ++ c :: u)) :
    ∃ a, t = a ++ c :: u ∧ Edited (Moved xs folder) a a' := by
  generalize hnew : a' ++ c :: u = new at h
  induction h generalizing a' with
  | nil => simp at hnew
  | plain d t new htail ih =>
      cases a' with
      | nil =>
          obtain ⟨rfl, rfl⟩ := List.cons_eq_cons.1 hnew
          obtain rfl := eq_of_moved hfolder htail fun hmem => hslash (List.mem_cons_of_mem _ hmem)
          exact ⟨[], rfl, .nil⟩
      | cons e a' =>
          obtain ⟨rfl, htext⟩ := List.cons_eq_cons.1 hnew
          obtain ⟨a, rfl, ha⟩ := ih htext
          exact ⟨e :: a, rfl, .plain e _ _ ha⟩
  | swap x y t new hswap htail ih =>
      rcases List.append_eq_append_iff.1 hnew with ⟨z, hy, hz⟩ | ⟨z, rfl, hz⟩
      · cases z with
        | nil =>
            obtain ⟨a, rfl, ha⟩ := @ih [] (by simpa using hz)
            rw [List.append_nil] at hy
            refine ⟨x ++ a, (List.append_assoc ..).symm, ?_⟩
            rw [← hy]
            exact (List.append_nil y) ▸ .swap x y a [] hswap ha
        | cons e z =>
            -- the word would start in the extension of the name
            obtain ⟨l, name, -, hname, rfl, rfl⟩ := hswap
            obtain ⟨stem, ext, rfl, -, -, hext⟩ := hname
            obtain ⟨rfl, rfl⟩ := List.cons_eq_cons.1 hz
            have hnodot : '.' ∉ c :: z := fun hmem => hdot (List.mem_append_left new hmem)
            have hcut : (folder ++ stem) ++ '.' :: ext = a' ++ c :: z := by simpa using hy
            obtain ⟨w, -, rfl⟩ := Text.exists_append_of_notMem_right hcut hnodot
            exact absurd (by simp) (hc _ hext)
      · obtain ⟨a, rfl, ha⟩ := ih hz.symm
        exact ⟨x ++ a, (List.append_assoc ..).symm, .swap x y a z hswap ha⟩

include hfolder hext in
/-- The two texts fall apart alike at a character of no path. -/
theorem split_moved {c : Char} (hc : ¬ inPath c) (h : Edited (Moved xs folder) t (a' ++ c :: b')) :
    ∃ a b, t = a ++ c :: b ∧ Edited (Moved xs folder) a a' ∧ Edited (Moved xs folder) b b' := by
  obtain ⟨a, b, rfl, ha, hb⟩ := h.flip.split_at fun y x hxy hmem =>
    hc (inPath_moved' hfolder hext hxy c hmem)
  exact ⟨a, b, rfl, ha.flip, hb.flip⟩

include hfolder hext in
theorem ClosesOnLine.moved (h : Edited (Moved xs folder) b b') (hb : ClosesOnLine b) :
    ClosesOnLine b' := by
  obtain ⟨v, r, rfl, hquote, hline⟩ := hb
  obtain ⟨v', r', rfl, hv, -⟩ := h.split_at fun x y hxy hmem =>
    ne_quote_of_inPath (inPath_moved hext hxy _ hmem) rfl
  refine ⟨v', r', rfl, fun hmem => hquote (hv.mem ?_ hmem), fun hmem => hline (hv.mem ?_ hmem)⟩
  · intro x y hxy hy
    exact absurd rfl (ne_quote_of_inPath (inPath_moved' hfolder hext hxy _ hy))
  · intro x y hxy hy
    exact absurd rfl (ne_newline_of_inPath (inPath_moved' hfolder hext hxy _ hy))

include hfolder hext in
theorem LinksClosed.moved (hh : ∀ x ∈ xs, 'h' ∉ x) (h : Edited (Moved xs folder) t new)
    (hlinks : LinksClosed t) : LinksClosed new := by
  rintro a' b' rfl
  have hshape : a' ++ (opening ++ b') = (a' ++ 'h' :: "ref=".toList) ++ '"' :: b' := by
    have hword : "href=".toList = 'h' :: "ref=".toList := by decide
    rw [opening, hword]
    simp
  rw [hshape] at h
  obtain ⟨a, b, rfl, ha, hb⟩ := split_moved hfolder hext (by decide) h
  obtain ⟨a, rfl, -⟩ := split_word hfolder (by decide) (by decide) hh ha
  refine (hlinks a b ?_).moved hfolder hext hb
  have hword : "href=".toList = 'h' :: "ref=".toList := by decide
  rw [opening, hword]
  simp

include hfolder hext in
theorem TagsAlone.moved (hangle : ∀ x ∈ xs, '<' ∉ x) (h : Edited (Moved xs folder) t new)
    (htags : TagsAlone t) : TagsAlone new := by
  refine htags.edited (tame_moved hfolder hext) fun l hl a' s' htext => ?_
  obtain ⟨kind, hkind, rfl⟩ := List.mem_map.1 hl
  have hmeta : "<meta".toList = '<' :: "meta".toList := by decide
  have hshape : ∀ a s : Text, a ++ (("<meta".toList ++ ' ' :: ("name=".toList
      ++ '"' :: ("csrf-".toList ++ kind.toList ++ ['"']))) ++ s)
        = (a ++ '<' :: "meta".toList) ++ ' ' :: ("name=".toList ++ '"' :: (("csrf-".toList
          ++ kind.toList) ++ '"' :: s)) := by
    intro a s
    rw [hmeta]
    simp
  have hslash : '/' ∉ "csrf-".toList ++ kind.toList := by
    have hkinds : ∀ kind ∈ ["param", "token"], '/' ∉ "csrf-".toList ++ kind.toList := by decide
    exact hkinds kind hkind
  rw [htext, hshape] at h
  obtain ⟨_, _, rfl, hfront, hattribute⟩ := split_moved hfolder hext (by decide) h
  obtain ⟨a, rfl, ha⟩ := split_word hfolder (by decide) (by decide) hangle hfront
  obtain ⟨_, _, rfl, hname, hvalue⟩ := split_moved hfolder hext (by decide) hattribute
  obtain rfl := eq_of_moved hfolder hname (by decide)
  obtain ⟨_, s, rfl, hkind, hs⟩ := split_moved hfolder hext (by decide) hvalue
  obtain rfl := eq_of_moved hfolder hkind hslash
  exact ⟨a, s, (hshape a s).symm, ha, hs⟩

include hfolder hext in
theorem Tidy.moved (hletters : ∀ x ∈ xs, 'h' ∉ x ∧ '<' ∉ x) (h : Relocated kept xs folder t new)
    (htidy : Tidy t) : Tidy new where
  links := htidy.links.moved hfolder hext (fun x hx => (hletters x hx).1) h.edited
  tags := htidy.tags.moved hfolder hext (fun x hx => (hletters x hx).2) h.edited

end moved

/-- Relocation keeps a page tidy. -/
theorem tidy_rewrite (port : Nat) (h : Tidy page) : Tidy (rewrite port page) := by
  have hjs : ∀ x ∈ ["js".toList], 'h' ∉ x ∧ '<' ∉ x := by decide
  have hcss : ∀ x ∈ ["css".toList], 'h' ∉ x ∧ '<' ∉ x := by decide
  have himg : ∀ x ∈ imageExtensions, 'h' ∉ x ∧ '<' ∉ x := by decide
  have hfont : ∀ x ∈ fontExtensions, 'h' ∉ x ∧ '<' ∉ x := by decide
  unfold rewrite
  refine Tidy.moved isFolder_img lists_imageExtension himg (relocated_images port _) ?_
  refine Tidy.moved isFolder_fonts lists_fontExtension hfont (relocated_assets lists_fontExtension _ _) ?_
  refine Tidy.moved isFolder_img lists_imageExtension himg (relocated_assets lists_imageExtension _ _) ?_
  refine Tidy.moved isFolder_css lists_css hcss (relocated_assets lists_css _ _) ?_
  refine Tidy.moved isFolder_js lists_js hjs (relocated_assets lists_js _ _) ?_
  exact Tidy.moved isFolder_js lists_js hjs (relocated_modules page) h

-- =================================================================== tidy or not

theorem closesOnLine_iff :
    ClosesOnLine t ↔ (t.dropWhile fun c => c ≠ '"' && c ≠ '\n').head? = some '"' := by
  constructor
  · rintro ⟨v, r, rfl, hquote, hline⟩
    rw [List.dropWhile_append_of_pos]
    · rfl
    · intro c hc
      have hne : c ≠ '"' := fun h => hquote (h ▸ hc)
      have hne' : c ≠ '\n' := fun h => hline (h ▸ hc)
      simp [hne, hne']
  · intro h
    obtain ⟨r, hr⟩ := List.head?_eq_some_iff.1 h
    refine ⟨t.takeWhile fun c => c ≠ '"' && c ≠ '\n', r, ?_, fun hc => ?_, fun hc => ?_⟩
    · rw [← hr]
      exact List.takeWhile_append_dropWhile.symm
    · have hkeep := List.all_eq_true.1 List.all_takeWhile _ hc
      simp at hkeep
    · have hkeep := List.all_eq_true.1 List.all_takeWhile _ hc
      simp at hkeep

instance (t : Text) : Decidable (ClosesOnLine t) := decidable_of_iff _ closesOnLine_iff.symm

theorem linksClosed_iff : LinksClosed page ↔ ∀ n ∈ List.range (page.length + 1),
    ∀ b ∈ Text.after? opening (page.drop n), ClosesOnLine b := by
  rw [← Text.forall_split_iff (P := fun _ t => ∀ b ∈ Text.after? opening t, ClosesOnLine b)]
  constructor
  · rintro h a t rfl b hb
    rw [Text.after?_eq_some_iff.1 hb] at h
    exact h a b rfl
  · rintro h a b rfl
    exact h a _ rfl b (Text.after?_eq_some_iff.2 rfl)

instance (page : Text) : Decidable (LinksClosed page) := decidable_of_iff _ linksClosed_iff.symm

theorem startsBlankLine_iff :
    StartsBlankLine t ↔ t.takeWhile isBlank = t ∨ '\n' ∈ t.takeWhile isBlank := by
  constructor
  · rintro ⟨ws, rest, rfl, hws, hrest⟩
    rw [List.takeWhile_append_of_pos hws]
    rcases hrest with rfl | ⟨s, rfl⟩
    · exact .inl rfl
    · rw [List.takeWhile_cons_of_pos isBlank_newline]
      exact .inr (by simp)
  · have hblank : ∀ c ∈ t.takeWhile isBlank, isBlank c = true := List.all_eq_true.1 List.all_takeWhile
    rintro (hall | hmem)
    · rw [hall] at hblank
      exact ⟨t, [], (List.append_nil t).symm, hblank, .inl rfl⟩
    · obtain ⟨ws, more, hsplit⟩ := List.append_of_mem hmem
      refine ⟨ws, '\n' :: (more ++ t.dropWhile isBlank), ?_, fun c hc => ?_, .inr ⟨_, rfl⟩⟩
      · rw [← List.cons_append, ← List.append_assoc, ← hsplit]
        exact List.takeWhile_append_dropWhile.symm
      · exact hblank c (by rw [hsplit]; exact List.mem_append_left _ hc)

instance (t : Text) : Decidable (StartsBlankLine t) := decidable_of_iff _ startsBlankLine_iff.symm

theorem endsBlankLine_iff : EndsBlankLine t ↔ StartsBlankLine t.reverse := by
  constructor
  · rintro ⟨front, ws, rfl, hfront, hws⟩
    refine ⟨ws.reverse, front.reverse, List.reverse_append, fun c hc => hws c (List.mem_reverse.1 hc), ?_⟩
    rcases hfront with rfl | ⟨s, rfl⟩
    · exact .inl rfl
    · exact .inr ⟨s.reverse, by simp⟩
  · rintro ⟨ws, rest, hsplit, hws, hrest⟩
    refine ⟨rest.reverse, ws.reverse, ?_, ?_, fun c hc => hws c (List.mem_reverse.1 hc)⟩
    · rw [← List.reverse_append, ← hsplit, List.reverse_reverse]
    · rcases hrest with rfl | ⟨s, rfl⟩
      · exact .inl rfl
      · exact .inr ⟨s.reverse, by simp⟩

instance (t : Text) : Decidable (EndsBlankLine t) := decidable_of_iff _ endsBlankLine_iff.symm

theorem tagsAlone_iff : TagsAlone page ↔ ∀ n ∈ List.range (page.length + 1), ∀ l ∈ tagLeads,
    ∀ r ∈ Text.after? l (page.drop n), '>' ∈ r →
      EndsBlankLine (page.take n) ∧ StartsBlankLine ((r.dropWhile (· ≠ '>')).drop 1) := by
  have hcut : ∀ {m b : Text}, '>' ∉ m → ((m ++ '>' :: b).dropWhile (· ≠ '>')).drop 1 = b := by
    intro m b hm
    have hkeep : ∀ c ∈ m, decide (c ≠ '>') = true := fun c hc =>
      decide_eq_true fun heq => hm (heq ▸ hc)
    rw [List.dropWhile_append_of_pos hkeep]
    rfl
  rw [← Text.forall_split_iff (P := fun a t => ∀ l ∈ tagLeads, ∀ r ∈ Text.after? l t, '>' ∈ r →
    EndsBlankLine a ∧ StartsBlankLine ((r.dropWhile (· ≠ '>')).drop 1))]
  constructor
  · rintro h a t rfl l hl r hr hmem
    obtain ⟨m, b, rfl, hm⟩ := List.eq_append_cons_of_mem hmem
    rw [hcut hm]
    refine h a (l ++ (m ++ ['>'])) b ?_ ⟨l, hl, m, rfl, hm⟩
    rw [Text.after?_eq_some_iff.1 hr]
    simp
  · rintro h a tag b rfl ⟨l, hl, m, rfl, hm⟩
    have hr : Text.after? l ((l ++ (m ++ ['>'])) ++ b) = some (m ++ '>' :: b) :=
      Text.after?_eq_some_iff.2 (by simp)
    have halone := h a _ rfl l hl _ hr (by simp)
    rwa [hcut hm] at halone

instance (page : Text) : Decidable (TagsAlone page) := decidable_of_iff _ tagsAlone_iff.symm

instance (page : Text) : Decidable (Tidy page) :=
  decidable_of_iff (LinksClosed page ∧ TagsAlone page) ⟨fun h => ⟨h.1, h.2⟩, fun h => ⟨h.links, h.tags⟩⟩

example : Tidy "<meta name=\"csrf-token\" content=\"x\">\n<a href=\"index.html\">assets/app.js</a>".toList := by
  decide +kernel

end SiteScaffold.Export.Html

/-
Which layout is set for a view. A directive lists the views it is for in a scope, of which there
are three forms (`Scope`), and a controller is made of directives and of other lines (`Line`).

A search for the layout of a view goes from match to match of one pattern. A match starts at
the keyword of a directive or nowhere (`clear_unquoted`, `clear_behind_keyword`): anything else with
the same letters has no quotation mark behind it. It goes through the scope exactly if the scope
lists the view (`startsAt_scopeOf_iff`), because a view stands between two edges of words, and so
does every name of a list. The search is then a search among the lines (`found_content`), by
induction on them.
-/
import Mathlib.Data.List.Chain
import SiteScaffold.Proofs.Patch.Directives

namespace SiteScaffold

-- ==================================================================== words of a list

namespace Text

variable {a b s t u v w x y lead sep : Text} {words : List Text}

/-- Whether no word goes on behind the text. -/
def EndsApart (t : Text) : Prop := ∀ c ∈ t.getLast?, isWord c = false

/-- Whether no word goes on in the text. -/
def StartsApart (t : Text) : Prop := ∀ c ∈ t.head?, isWord c = false

/-- Whether a text is a word. -/
structure IsWord (t : Text) : Prop where
  ne_nil : t ≠ []
  letters : ∀ c ∈ t, isWord c = true

theorem EndsApart.of_append (h : EndsApart (s ++ t)) : EndsApart t := by
  intro c hc
  refine h c ?_
  rw [List.getLast?_append, Option.mem_def.1 hc]
  rfl

theorem startsApart_of_letters (h : ∀ c ∈ t, isWord c = false) (hne : t ≠ []) : StartsApart (t ++ u) := by
  obtain ⟨c, t, rfl⟩ := List.exists_cons_of_ne_nil hne
  intro d hd
  obtain rfl : c = d := by simpa using hd
  exact h c (List.mem_cons_self ..)

/-- A word is not in what stands between words. -/
theorem exists_of_gap_append (hs : ∀ c ∈ s, isWord c = false) (hw : IsWord w) (hx : EndsApart x)
    (h : s ++ t = x ++ (w ++ y)) : ∃ x', t = x' ++ (w ++ y) ∧ EndsApart x' := by
  rcases List.append_eq_append_iff.1 h with ⟨z, rfl, ht⟩ | ⟨z, rfl, ht⟩
  · exact ⟨z, ht, hx.of_append⟩
  · cases z with
    | nil => exact ⟨[], by simpa using ht.symm, by simp [EndsApart]⟩
    | cons c z =>
        obtain ⟨d, w, rfl⟩ := List.exists_cons_of_ne_nil hw.ne_nil
        obtain ⟨rfl, -⟩ := List.cons_eq_cons.1 ht
        have hword := hw.letters d (List.mem_cons_self ..)
        rw [hs d (by simp)] at hword
        cases hword

/-- A word between two edges of words is the first one or stands behind it. -/
theorem eq_or_exists_of_word_append (hv : ∀ c ∈ v, isWord c = true) (hb : StartsApart b) (hw : IsWord w)
    (hx : EndsApart x) (hy : StartsApart y) (h : v ++ b = x ++ (w ++ y)) :
    w = v ∨ ∃ x', b = x' ++ (w ++ y) ∧ EndsApart x' := by
  rcases List.append_eq_append_iff.1 h with ⟨z, rfl, hz⟩ | ⟨z, rfl, hz⟩
  · exact .inr ⟨z, hz, hx.of_append⟩
  · by_cases hnil : x = []
    · subst hnil
      exact .inl (append_inj_of_span (s := [] ++ z) (t := w) h hv hw.letters hb hy).1.symm
    · -- the text in front of the word would end within the first one
      obtain ⟨x, c, rfl⟩ := List.eq_nil_or_concat' x |>.resolve_left hnil
      have hword := hv c (by simp)
      rw [hx c (by simp)] at hword
      cases hword

section Listed

variable (hlead : ∀ c ∈ lead, isWord c = false) (hsep : ∀ c ∈ sep, isWord c = false) (hne : sep ≠ [])
  (hwords : ∀ v ∈ words, IsWord v)

include hlead hsep hne hwords

/-- A word between two edges of words of a list is one of the list. -/
theorem mem_of_join_eq (hw : IsWord w) (hx : EndsApart x) (hy : StartsApart y)
    (h : join sep (words.map (lead ++ ·)) = x ++ (w ++ y)) : w ∈ words := by
  induction words generalizing x with
  | nil =>
      have hnil := congrArg List.length h
      have hpos := List.length_pos_iff.2 hw.ne_nil
      simp [join, List.intercalate] at hnil
      omega
  | cons v words ih =>
      have hv := hwords v (List.mem_cons_self ..)
      by_cases hrest : words = []
      · rw [hrest] at h
        have hone : lead ++ (v ++ []) = x ++ (w ++ y) := by simpa [join, List.intercalate] using h
        obtain ⟨x', hcut, hx'⟩ := exists_of_gap_append hlead hw hx hone
        rcases eq_or_exists_of_word_append hv.letters (by simp [StartsApart]) hw hx' hy hcut with rfl | ⟨x'', hnil, -⟩
        · exact List.mem_cons_self ..
        · exact absurd (List.append_eq_nil_iff.1 (List.append_eq_nil_iff.1 hnil.symm).2).1 hw.ne_nil
      · rw [List.map_cons, join_cons sep _ (by simpa using hrest), List.append_assoc] at h
        obtain ⟨x', hcut, hx'⟩ := exists_of_gap_append hlead hw hx h
        have hbehind : StartsApart (sep ++ join sep (words.map (lead ++ ·))) := startsApart_of_letters hsep hne
        rcases eq_or_exists_of_word_append hv.letters hbehind hw hx' hy hcut with rfl | ⟨x'', hcut', hx''⟩
        · exact List.mem_cons_self ..
        · obtain ⟨y', hcut'', hy'⟩ := exists_of_gap_append hsep hw hx'' hcut'
          exact List.mem_cons_of_mem _ (ih (fun v hv => hwords v (List.mem_cons_of_mem _ hv)) hy' hcut'')

variable (lead) in
omit hlead in
/-- A word of a list stands between two edges of words. -/
theorem exists_join_eq (hmem : w ∈ words) :
    ∃ x y, join sep (words.map (lead ++ ·)) = x ++ (lead ++ (w ++ y)) ∧ EndsApart x ∧ StartsApart y := by
  induction words with
  | nil => cases hmem
  | cons v words ih =>
      by_cases hrest : words = []
      · rw [hrest] at hmem ⊢
        rw [List.mem_singleton.1 hmem]
        exact ⟨[], [], by simp [join, List.intercalate], by simp [EndsApart], by simp [StartsApart]⟩
      · rw [List.map_cons, join_cons sep _ (by simpa using hrest)]
        rcases List.mem_cons.1 hmem with rfl | hmem
        · exact ⟨[], sep ++ join sep (words.map (lead ++ ·)), by simp, by simp [EndsApart],
            startsApart_of_letters hsep hne⟩
        · obtain ⟨x, y, hcut, hx, hy⟩ := ih (fun v hv => hwords v (List.mem_cons_of_mem _ hv)) hmem
          refine ⟨lead ++ v ++ (sep ++ x), y, by rw [hcut]; simp, fun c hc => ?_, hy⟩
          rw [List.getLast?_append, List.getLast?_append] at hc
          cases hlast : x.getLast? with
          | some d =>
              rw [hlast] at hc
              exact hx c (by simpa [hlast] using hc)
          | none =>
              obtain ⟨s, d, hd⟩ := List.eq_nil_or_concat' sep |>.resolve_left hne
              rw [hlast, hd, List.getLast?_concat] at hc
              obtain rfl : d = c := by simpa using hc
              exact hsep d (by simp [hd])

end Listed

end Text

namespace Patch.LayoutDirective

open Pattern
open Text (EndsApart StartsApart IsWord)
open Directives (StartsQuoted opening)

variable {view name s t u w rest : Text} {before : Option Char}

-- =============================================================================== names

/-- Whether a text is a word over the lower-case letters, the digits and the underscore. -/
structure IsName (t : Text) : Prop where
  ne_nil : t ≠ []
  letters : ∀ c ∈ t, Name.isNameChar c = true

instance (t : Text) : Decidable (IsName t) :=
  decidable_of_iff (t ≠ [] ∧ ∀ c ∈ t, Name.isNameChar c = true)
    ⟨fun h => ⟨h.1, h.2⟩, fun h => ⟨h.ne_nil, h.letters⟩⟩

theorem IsName.isWord (h : IsName t) : IsWord t := ⟨h.ne_nil, fun c hc => Name.isWord_of_isNameChar (h.letters c hc)⟩

theorem IsName.notMem {c : Char} (h : IsName t) (hc : Name.isNameChar c = false) : c ∉ t := by
  intro hmem
  rw [h.letters c hmem] at hc
  cases hc

/-- Behind a word is an edge of it if no word goes on. -/
theorem matches_boundary_behind (hw : IsWord w) :
    boundary.Matches (lastAfter before w) t rest ↔ t = [] ∧ StartsApart rest := by
  obtain ⟨r, c, hlast⟩ := List.eq_nil_or_concat' w |>.resolve_left hw.ne_nil
  have hc : Text.isWord c = true := hw.letters c (by simp [hlast])
  rw [hlast, lastAfter_concat, matches_boundary]
  refine and_congr_right fun _ => ?_
  cases rest with
  | nil => simp [hc, StartsApart]
  | cons d rest => simp [hc, StartsApart]

/-- In front of a word is an edge of it if no word goes on into it. -/
theorem matches_boundary_before {c : Char} (hc : Text.isWord c = false) (hw : IsWord w) :
    boundary.Matches (lastAfter (some c) s) t (w ++ rest) ↔ t = [] ∧ EndsApart s := by
  obtain ⟨d, w, rfl⟩ := List.exists_cons_of_ne_nil hw.ne_nil
  have hd : Text.isWord d = true := hw.letters d (List.mem_cons_self ..)
  rw [matches_boundary]
  refine and_congr_right fun _ => ?_
  rcases List.eq_nil_or_concat' s with rfl | ⟨s, e, rfl⟩
  · simp [hc, hd, EndsApart]
  · simp [hd, EndsApart]

-- ============================================================================== scopes

/-- An `only:` scope, by the views it lists. -/
inductive Scope where
  /-- One view, as a symbol. -/
  | symbol (view : Text)
  /-- A list of symbols. -/
  | symbols (views : List Text)
  /-- A list of words. -/
  | words (views : List Text)
  deriving Repr, DecidableEq

namespace Scope

/-- The views of a scope. -/
def views : Scope → List Text
  | symbol view => [view]
  | symbols views | words views => views

/-- A scope as it is written. -/
def text : Scope → Text
  | symbol view => ":" ++ view
  | symbols views => "[" ++ Text.join ", " (views.map (":".toList ++ ·)) ++ "]"
  | words views => "%i[" ++ Text.join " " views ++ "]"

/-- What holds of the characters that scopes are written with and of those of the views holds of all
characters of a scope. -/
theorem forall_text {P : Char → Prop} {scope : Scope} (hmarks : ∀ c ∈ ":[]%i, ".toList, P c)
    (hviews : ∀ v ∈ scope.views, ∀ c ∈ v, P c) : ∀ c ∈ scope.text, P c := by
  have hmark {t : Text} (ht : ∀ c ∈ t, c ∈ ":[]%i, ".toList) : ∀ c ∈ t, P c := fun c hc => hmarks c (ht c hc)
  have hjoin {sep : Text} (lead : Text) (hsep : ∀ c ∈ sep, P c) (hlead : ∀ c ∈ lead, P c) :
      ∀ c ∈ Text.join sep (scope.views.map (lead ++ ·)), P c := by
    intro c hc
    rcases Text.mem_join hc with hc | ⟨v, hv, hc⟩
    · exact hsep c hc
    · obtain ⟨name, hname, rfl⟩ := List.mem_map.1 hv
      exact List.forall_mem_append.2 ⟨hlead, hviews name hname⟩ c hc
  cases scope with
  | symbol view => exact List.forall_mem_append.2 ⟨hmark (by decide), hviews view (List.mem_singleton_self view)⟩
  | symbols views =>
      have hentries := hjoin ":".toList (hmark (t := ", ".toList) (by decide)) (hmark (by decide))
      exact List.forall_mem_append.2 ⟨List.forall_mem_append.2 ⟨hmark (by decide), hentries⟩, hmark (by decide)⟩
  | words views =>
      have hentries := hjoin [] (hmark (t := " ".toList) (by decide)) (by simp)
      have hmap : (Scope.words views).views.map ([] ++ ·) = views := by simp [Scope.views]
      rw [hmap] at hentries
      exact List.forall_mem_append.2 ⟨List.forall_mem_append.2 ⟨hmark (by decide), hentries⟩, hmark (by decide)⟩

end Scope

/-- What stands between the brackets of a list up to one of its entries. -/
def InList (t : Text) : Prop := ∀ c ∈ t, c ≠ ']' ∧ c ≠ '\n'

/-- A pattern that ends with the name of a view reads it up to an edge of words. -/
theorem startsAt_name {p : Pattern} (hview : IsWord view) : (p ++ literal view ++ boundary).StartsAt before t ↔
    ∃ u y, t = u ++ (view ++ y) ∧ p.Matches before u (view ++ y) ∧ StartsApart y := by
  constructor
  · rintro ⟨_, y, rfl, h⟩
    obtain ⟨_, _, rfl, h, hedge⟩ := matches_append.1 h
    obtain ⟨u, _, rfl, hfront, hname⟩ := matches_append.1 h
    obtain rfl := matches_literal.1 hname
    rw [lastAfter_append] at hedge
    obtain ⟨rfl, hy⟩ := (matches_boundary_behind hview).1 hedge
    exact ⟨u, y, by simp, hfront, hy⟩
  · rintro ⟨u, y, rfl, hfront, hy⟩
    refine ⟨u ++ view ++ [], y, by simp, matches_append.2 ⟨_, [], rfl, ?_, ?_⟩⟩
    · exact matches_append.2 ⟨u, view, rfl, hfront, matches_literal.2 rfl⟩
    · rw [lastAfter_append]
      exact (matches_boundary_behind hview).2 ⟨rfl, hy⟩

/-- The pattern of a scope reads a symbol, or an entry of one of the two kinds of list. -/
theorem startsAt_scopeOf (hview : IsWord view) : (scopeOf view).StartsAt before t ↔
    (∃ y, t = ':' :: (view ++ y) ∧ StartsApart y)
      ∨ (∃ x y, t = '[' :: (x ++ ':' :: (view ++ y)) ∧ InList x ∧ StartsApart y)
      ∨ ∃ x y, t = "%i[".toList ++ (x ++ (view ++ y)) ∧ InList x ∧ EndsApart x ∧ StartsApart y := by
  have hbracket : Text.isWord '[' = false := by decide
  have hclass : ∀ {x : Text}, (∀ c ∈ x, decide (c ≠ ']') && decide (c ≠ '\n')) ↔ InList x := by simp [InList]
  rw [scopeOf, startsAt_or, startsAt_or, startsAt_name hview, startsAt_name hview, startsAt_name hview, or_assoc]
  refine or_congr ?_ (or_congr ?_ ?_)
  · constructor
    · rintro ⟨u, y, rfl, hcolon, hy⟩
      exact ⟨y, by rw [matches_literal.1 hcolon]; rfl, hy⟩
    · rintro ⟨y, rfl, hy⟩
      exact ⟨":".toList, y, rfl, matches_literal.2 rfl, hy⟩
  · constructor
    · rintro ⟨_, y, rfl, h, hy⟩
      obtain ⟨_, _, rfl, h, hcolon⟩ := matches_append.1 h
      obtain ⟨_, x, rfl, hopen, hx⟩ := matches_append.1 h
      obtain rfl := matches_literal.1 hopen
      obtain rfl := matches_literal.1 hcolon
      exact ⟨x, y, by simp, hclass.1 (matches_many.1 hx), hy⟩
    · rintro ⟨x, y, rfl, hx, hy⟩
      refine ⟨"[".toList ++ x ++ ":".toList, y, by simp, matches_append.2 ⟨_, _, rfl, ?_, matches_literal.2 rfl⟩, hy⟩
      exact matches_append.2 ⟨_, _, rfl, matches_literal.2 rfl, matches_many.2 (hclass.2 hx)⟩
  · constructor
    · rintro ⟨_, y, rfl, h, hy⟩
      obtain ⟨_, _, rfl, h, hedge⟩ := matches_append.1 h
      obtain ⟨_, x, rfl, hopen, hx⟩ := matches_append.1 h
      obtain rfl := matches_literal.1 hopen
      rw [lastAfter_append] at hedge
      obtain ⟨rfl, hapart⟩ := (matches_boundary_before hbracket hview).1 hedge
      exact ⟨x, y, by simp, hclass.1 (matches_many.1 hx), hapart, hy⟩
    · rintro ⟨x, y, rfl, hx, hapart, hy⟩
      refine ⟨"%i[".toList ++ x ++ [], y, by simp, matches_append.2 ⟨_, [], rfl, ?_, ?_⟩, hy⟩
      · exact matches_append.2 ⟨_, _, rfl, matches_literal.2 rfl, matches_many.2 (hclass.2 hx)⟩
      · rw [lastAfter_append]
        exact (matches_boundary_before hbracket hview).2 ⟨rfl, hapart⟩

theorem InList.of_append (h : InList (s ++ t)) : InList s := fun c hc => h c (List.mem_append_left _ hc)

theorem InList.append (hs : InList s) (ht : InList t) : InList (s ++ t) :=
  fun c hc => (List.mem_append.1 hc).elim (hs c) (ht c)

theorem IsName.inList (h : IsName name) : InList name := fun c hc =>
  ⟨Name.ne_of_isNameChar (h.letters c hc) (by decide), Name.ne_of_isNameChar (h.letters c hc) (by decide)⟩

theorem inList_join {sep : Text} {views : List Text} (lead : Text) (hlead : InList lead) (hsep : InList sep)
    (hviews : ∀ v ∈ views, IsName v) : InList (Text.join sep (views.map (lead ++ ·))) := by
  intro c hc
  rcases Text.mem_join hc with hc | ⟨v, hv, hc⟩
  · exact hsep c hc
  · obtain ⟨name, hname, rfl⟩ := List.mem_map.1 hv
    exact hlead.append (hviews name hname).inList c hc

/-- An entry stands in front of the bracket that closes its list. -/
theorem of_inList {a x y : Text} (hx : InList x) (hw : IsName w) (h : a ++ ']' :: rest = x ++ (w ++ y))
    (hy : StartsApart y) : ∃ y', a = x ++ (w ++ y') ∧ StartsApart y' := by
  have hclose : ']' ∉ x ++ w := fun hmem => (hx.append hw.inList _ hmem).1 rfl
  rw [← List.append_assoc] at h
  obtain ⟨y', rfl, rfl⟩ := Text.exists_append_of_notMem h hclose
  refine ⟨y', List.append_assoc .., fun c hc => hy c ?_⟩
  rw [List.head?_append, Option.mem_def.1 hc]
  rfl

theorem startsApart_append_bracket (h : StartsApart t) : StartsApart (t ++ ']' :: rest) := by
  cases t with
  | nil => exact Text.startsApart_of_letters (t := [']']) (u := rest) (by decide) (by simp)
  | cons c t => simpa [StartsApart] using h

section Scopes

variable {views : List Text} (hviews : ∀ v ∈ views, IsName v) (hview : IsName view)

include hview

theorem startsAt_symbol (hname : IsName name) (hrest : StartsApart rest) :
    (scopeOf view).StartsAt before ((Scope.symbol name).text ++ rest) ↔ view = name := by
  have htext : (Scope.symbol name).text ++ rest = ':' :: (name ++ rest) := rfl
  rw [htext, startsAt_scopeOf hview.isWord]
  constructor
  · rintro (⟨y, heq, hy⟩ | ⟨x, y, heq, -⟩ | ⟨x, y, heq, -⟩)
    · exact (Text.append_inj_of_span (List.cons_eq_cons.1 heq).2 hname.isWord.letters
        hview.isWord.letters hrest hy).1.symm
    · cases (List.cons_eq_cons.1 heq).1
    · cases (List.cons_eq_cons.1 heq).1
  · rintro rfl
    exact .inl ⟨rest, rfl, hrest⟩

include hviews

theorem startsAt_symbols :
    (scopeOf view).StartsAt before ((Scope.symbols views).text ++ rest) ↔ view ∈ views := by
  have hcomma : ∀ c ∈ ", ".toList, Text.isWord c = false := by decide +kernel
  have hcolon : ∀ c ∈ ":".toList, Text.isWord c = false := by decide +kernel
  have hlead : InList ":".toList := by unfold InList; decide
  have hsep : InList ", ".toList := by unfold InList; decide
  have hwords : ∀ v ∈ views, IsWord v := fun v hv => (hviews v hv).isWord
  have htext : (Scope.symbols views).text ++ rest
      = '[' :: (Text.join ", " (views.map (":".toList ++ ·)) ++ ']' :: rest) := by simp [Scope.text]
  rw [htext, startsAt_scopeOf hview.isWord]
  constructor
  · rintro (⟨y, heq, -⟩ | ⟨x, y, heq, hx, hy⟩ | ⟨x, y, heq, -⟩)
    · cases (List.cons_eq_cons.1 heq).1
    · have hcut : Text.join ", " (views.map (":".toList ++ ·)) ++ ']' :: rest = (x ++ ":".toList) ++ (view ++ y) := by
        simpa using (List.cons_eq_cons.1 heq).2
      have hapart : EndsApart (x ++ ":".toList) := by
        rw [EndsApart, List.getLast?_append]
        simpa using hcolon
      obtain ⟨y', hjoin, hy'⟩ := of_inList (hx.append hlead) hview hcut hy
      exact Text.mem_of_join_eq hcolon hcomma (by decide) hwords hview.isWord hapart hy' hjoin
    · cases (List.cons_eq_cons.1 heq).1
  · intro hmem
    obtain ⟨x, y, hjoin, -, hy⟩ := Text.exists_join_eq ":".toList hcomma (by decide) hwords hmem
    have hlist := inList_join _ hlead hsep hviews
    rw [hjoin] at hlist
    exact .inr (.inl ⟨x, y ++ ']' :: rest, by rw [hjoin]; simp, hlist.of_append, startsApart_append_bracket hy⟩)

theorem startsAt_words :
    (scopeOf view).StartsAt before ((Scope.words views).text ++ rest) ↔ view ∈ views := by
  have hspace : ∀ c ∈ " ".toList, Text.isWord c = false := by decide +kernel
  have hsep : InList " ".toList := by unfold InList; decide
  have hwords : ∀ v ∈ views, IsWord v := fun v hv => (hviews v hv).isWord
  have hmap : views.map ([] ++ ·) = views := by simp
  have htext : (Scope.words views).text ++ rest = "%i[".toList ++ (Text.join " " views ++ ']' :: rest) := by
    simp [Scope.text]
  rw [htext, startsAt_scopeOf hview.isWord]
  constructor
  · rintro (⟨y, heq, -⟩ | ⟨x, y, heq, -⟩ | ⟨x, y, heq, hx, hapart, hy⟩)
    · cases (List.cons_eq_cons.1 heq).1
    · cases (List.cons_eq_cons.1 heq).1
    · obtain ⟨y', hjoin, hy'⟩ := of_inList hx hview (List.append_cancel_left heq) hy
      rw [← hmap] at hjoin
      exact Text.mem_of_join_eq (by simp) hspace (by decide) hwords hview.isWord hapart hy' hjoin
  · intro hmem
    obtain ⟨x, y, hjoin, hx, hy⟩ := Text.exists_join_eq [] hspace (by decide) hwords hmem
    have hlist := inList_join [] (by simp [InList]) hsep hviews
    rw [hjoin] at hlist
    rw [hmap] at hjoin
    exact .inr (.inr ⟨x, y ++ ']' :: rest, by rw [hjoin]; simp, hlist.of_append, hx, startsApart_append_bracket hy⟩)

end Scopes

/-- A scope is read with the name of a view exactly if it lists the view. -/
theorem startsAt_scopeOf_iff {scope : Scope} (hviews : ∀ v ∈ scope.views, IsName v) (hview : IsName view)
    (hrest : StartsApart rest) : (scopeOf view).StartsAt before (scope.text ++ rest) ↔ view ∈ scope.views := by
  cases scope with
  | symbol name =>
      rw [startsAt_symbol hview (hviews name (List.mem_cons_self ..)) hrest]
      exact List.mem_singleton.symm
  | symbols views => exact startsAt_symbols hviews hview
  | words views => exact startsAt_words hviews hview

theorem not_isBlank_of_startsAt_scopeOf (hview : IsWord view) (h : (scopeOf view).StartsAt before t) :
    ∀ c ∈ t.head?, Text.isBlank c = false := by
  have hmarks : Text.isBlank ':' = false ∧ Text.isBlank '[' = false ∧ Text.isBlank '%' = false := by decide
  rcases (startsAt_scopeOf hview).1 h with ⟨y, rfl, -⟩ | ⟨x, y, rfl, -⟩ | ⟨x, y, rfl, -⟩
  · simpa using hmarks.1
  · simpa using hmarks.2.1
  · simpa using hmarks.2.2

theorem not_isBlank_text (scope : Scope) : ∀ c ∈ (scope.text ++ rest).head?, Text.isBlank c = false := by
  have hmarks : Text.isBlank ':' = false ∧ Text.isBlank '[' = false ∧ Text.isBlank '%' = false := by decide
  cases scope with
  | symbol view => simpa [Scope.text] using hmarks.1
  | symbols views => simpa [Scope.text] using hmarks.2.1
  | words views => simpa [Scope.text] using hmarks.2.2

-- ========================================================================== directives

/-- A directive: a layout between quotation marks and a scope, with white space around. -/
structure Setting where
  indent : Text
  mark : Char
  layout : Text
  scope : Scope
  trail : Text
  deriving Repr, DecidableEq

namespace Setting

/-- A directive from its keyword on. -/
def stated (d : Setting) : Text :=
  "layout " ++ d.mark :: (d.layout ++ d.mark :: (", only: " ++ (d.scope.text ++ d.trail)))

theorem stated_eq (d : Setting) (rest : Text) : d.stated ++ rest = "layout".toList ++ (" ".toList ++ d.mark ::
    (d.layout ++ d.mark :: (", only:".toList ++ (" ".toList ++ (d.scope.text ++ (d.trail ++ rest)))))) := by
  unfold stated
  simp only [String.reduceToList, List.append_assoc, List.cons_append, List.nil_append]

/-- Whether the names in a directive are names, and the rest of it is what it should be. -/
structure IsProper (d : Setting) : Prop where
  indent : ∀ c ∈ d.indent, isSpacing c
  mark : isQuote d.mark
  layout : IsName d.layout
  views : ∀ v ∈ d.scope.views, IsName v
  trail : ∀ c ∈ d.trail, Text.isBlank c ∧ c ≠ '\n'

instance (d : Setting) : Decidable d.IsProper :=
  decidable_of_iff ((∀ c ∈ d.indent, isSpacing c) ∧ isQuote d.mark ∧ IsName d.layout
      ∧ (∀ v ∈ d.scope.views, IsName v) ∧ ∀ c ∈ d.trail, Text.isBlank c ∧ c ≠ '\n')
    ⟨fun h => ⟨h.1, h.2.1, h.2.2.1, h.2.2.2.1, h.2.2.2.2⟩, fun h => ⟨h.indent, h.mark, h.layout, h.views, h.trail⟩⟩

end Setting

/-- Texts in which no colon follows the last letter of the word `only`. -/
def NoOnly (t : Text) : Prop := t.IsChain fun c d => c = 'y' → d ≠ ':'

theorem noOnly_of_notMem (h : ':' ∉ t) : NoOnly t := by
  unfold NoOnly
  induction t with
  | nil => exact .nil
  | cons c t ih =>
      rw [List.mem_cons, not_or] at h
      refine List.isChain_cons.2 ⟨fun d hd _ hcolon => h.2 ?_, ih h.2⟩
      rw [← hcolon]
      exact List.mem_of_head? hd

theorem NoOnly.cons {c : Char} (hc : c ≠ 'y') (h : NoOnly t) : NoOnly (c :: t) :=
  List.isChain_cons.2 ⟨fun _ _ heq => absurd heq hc, h⟩

theorem NoOnly.append (hs : NoOnly s) (ht : NoOnly t) (hhead : t.head? ≠ some ':') : NoOnly (s ++ t) := by
  refine List.IsChain.append hs ht fun _ _ d hd _ hcolon => hhead ?_
  rw [Option.mem_def.1 hd, hcolon]

theorem noOnly_text {scope : Scope} (hviews : ∀ v ∈ scope.views, IsName v) : NoOnly scope.text := by
  have hname : ∀ {v}, IsName v → NoOnly v := fun hv => noOnly_of_notMem (hv.notMem (by decide))
  cases scope with
  | symbol name => exact (hname (hviews name (List.mem_cons_self ..))).cons (by decide)
  | symbols views =>
      have hjoin : NoOnly (Text.join ", " (views.map (":".toList ++ ·))) := by
        replace hviews : ∀ v ∈ views, IsName v := hviews
        induction views with
        | nil => exact .nil
        | cons v views ih =>
            have hfirst : NoOnly (":".toList ++ v) := (hname (hviews v (List.mem_cons_self ..))).cons (by decide)
            by_cases hrest : views = []
            · rw [hrest]
              simpa [Text.join, List.intercalate] using hfirst
            · rw [List.map_cons, Text.join_cons _ _ (by simpa using hrest)]
              have hlater := ih fun v hv => hviews v (List.mem_cons_of_mem _ hv)
              exact hfirst.append ((hlater.cons (by decide)).cons (by decide)) (by simp)
      have htext : (Scope.symbols views).text = '[' :: (Text.join ", " (views.map (":".toList ++ ·)) ++ [']']) := rfl
      rw [htext]
      exact (hjoin.append (noOnly_of_notMem (by decide)) (by simp)).cons (by decide)
  | words views =>
      refine noOnly_of_notMem fun hmem => ?_
      have hbrackets : ':' ∉ "%i[".toList ∧ ':' ∉ " ".toList ∧ ':' ∉ "]".toList := by decide
      rcases List.mem_append.1 hmem with hmem | hmem
      · rcases List.mem_append.1 hmem with hmem | hmem
        · exact hbrackets.1 hmem
        · rcases Text.mem_join hmem with hmem | ⟨v, hv, hmem⟩
          · exact hbrackets.2.1 hmem
          · exact (hviews v hv).notMem (by decide) hmem
      · exact hbrackets.2.2 hmem

/-- The keyword of a scope stands on its line once. -/
theorem of_only {x t w : Text} (hx : ∀ c ∈ x, inLine c) (hw : NoOnly w) (hrest : ∀ c ∈ rest.head?, c = '\n')
    (h : x ++ ("only:".toList ++ t) = ", only:".toList ++ (w ++ rest)) : t = w ++ rest := by
  have hcut : (x ++ "only".toList) ++ ':' :: t = ", only".toList ++ ':' :: (w ++ rest) := by simpa using h
  obtain ⟨z, hfront, hz⟩ := Text.exists_append_of_notMem hcut (by decide)
  cases z with
  | nil => exact (List.cons_eq_cons.1 hz).2.symm
  | cons c z =>
      obtain ⟨rfl, hbehind⟩ := List.cons_eq_cons.1 hz
      have hword : "only".toList = "onl".toList ++ ['y'] := rfl
      rcases List.eq_nil_or_concat' z with rfl | ⟨z, d, rfl⟩
      · -- the text in front would end in the colon and in the word
        have hlast := congrArg List.getLast? hfront
        rw [hword, ← List.append_assoc, List.getLast?_concat] at hlast
        cases hlast
      · have hcolon : ", only".toList ++ ':' :: (z ++ [d]) = ", only:".toList ++ z ++ [d] := by simp
        rw [hcolon, hword, ← List.append_assoc] at hfront
        obtain ⟨hbefore, hlast⟩ := List.append_inj' hfront rfl
        obtain rfl := List.cons_eq_cons.1 hlast |>.1
        have hline : '\n' ∉ z ++ ['y', ':'] := by
          intro hmem
          have hin : '\n' ∈ x ++ "onl".toList := by
            rw [hbefore]
            have hz : '\n' ∈ z := by simpa using hmem
            exact List.mem_append_right _ hz
          rcases List.mem_append.1 hin with hin | hin
          · cases hx _ hin
          · exact absurd hin (by decide)
        have hsplit : w ++ rest = (z ++ ['y', ':']) ++ t := by rw [hbehind]; simp
        obtain ⟨y, rfl⟩ : ∃ y, w = (z ++ ['y', ':']) ++ y := by
          rcases List.append_eq_append_iff.1 hsplit with ⟨y, hy, hrest'⟩ | ⟨y, hy, -⟩
          · cases y with
            | nil => exact ⟨[], by rw [hy]; simp⟩
            | cons c y =>
                obtain rfl := hrest c (by simp [hrest'])
                exact absurd (by rw [hy]; simp) hline
          · exact ⟨y, hy⟩
        rw [List.append_assoc] at hw
        have hpair : List.IsChain (fun c d => c = 'y' → d ≠ ':') ('y' :: ':' :: y) := List.IsChain.right_of_append hw
        exact absurd rfl ((List.isChain_cons.1 hpair).1 ':' rfl rfl)

namespace Setting.IsProper

variable {d : Setting} (hd : d.IsProper) (hview : IsName view) (hrest : ∀ c ∈ rest.head?, c = '\n')

include hd hrest

/-- No word goes on behind a scope. -/
theorem startsApart_trail : StartsApart (d.trail ++ rest) := by
  intro c hc
  cases htrail : d.trail with
  | nil =>
      rw [htrail] at hc
      rw [hrest c hc]
      decide +kernel
  | cons e trail =>
      obtain rfl : e = c := by simpa [htrail] using hc
      exact Text.not_isWord_of_isBlank (hd.trail e (by simp [htrail])).1

include hview

/-- What is read from the keyword of a directive on is its layout and a scope that lists the view. -/
theorem of_accepts {kept : List (Nat × Text)} {u rest' : Text} (h : (directiveFor view).Accepts before u rest' kept)
    (heq : u ++ rest' = d.stated ++ rest) : kept = [(1, d.layout)] ∧ view ∈ d.scope.views := by
  obtain ⟨g, o, name, c, x, sl, sc, before', rfl, rfl, ⟨-, hg⟩, ho, hname, hc, hx, hsl, hscope⟩ :=
    Directives.accepts_directiveFor h
  have hblank : ∀ {q}, isQuote q → Text.isBlank q = false := fun hq => Text.not_isBlank_of_isQuote hq
  have hlayout : ∀ c ∈ d.layout, isQuote c = false := fun c hc => Name.not_isQuote_of_isNameChar (hd.layout.letters c hc)
  rw [stated_eq] at heq
  simp only [List.append_assoc, List.cons_append] at heq
  obtain ⟨rfl, hargument⟩ := Text.append_inj_of_span (List.append_cancel_left heq) hg (by decide)
    (by simp [hblank ho]) (by simp [hblank hd.mark])
  obtain ⟨rfl, hbehind⟩ := Text.append_inj_of_span (P := fun e => !isQuote e) (List.cons_eq_cons.1 hargument).2
    (by simpa using hname) (by simpa using hlayout) (by simp [hc]) (by simp [hd.mark])
  -- the word `only` is the one in front of the scope
  have hline : NoOnly (" ".toList ++ (d.scope.text ++ d.trail)) := by
    have htrail : ':' ∉ d.trail := fun hmem => by cases (hd.trail _ hmem).1
    refine ((noOnly_text hd.views).append (noOnly_of_notMem htrail) ?_).cons (by decide)
    exact fun hhead => htrail (List.mem_of_head? hhead)
  have hbreak : sl ++ (sc ++ rest') = " ".toList ++ (d.scope.text ++ (d.trail ++ rest)) := by
    simpa only [List.append_assoc] using of_only hx hline hrest (by simpa using (List.cons_eq_cons.1 hbehind).2)
  have hstarts : (scopeOf view).StartsAt before' (sc ++ rest') := ⟨sc, rest', rfl, hscope⟩
  obtain ⟨-, hcut⟩ := Text.append_inj_of_span hbreak hsl (by decide)
    (not_isBlank_of_startsAt_scopeOf hview.isWord hstarts) (not_isBlank_text d.scope)
  rw [hcut] at hstarts
  exact ⟨rfl, (startsAt_scopeOf_iff hd.views hview (hd.startsApart_trail hrest)).1 hstarts⟩

/-- A directive whose scope lists the view is found there. -/
theorem startsAt_stated (hmem : view ∈ d.scope.views) : (directiveFor view).StartsAt before (d.stated ++ rest) := by
  have hspace : ∀ c ∈ " ".toList, Text.isBlank c := by decide
  have hline : ∀ c ∈ ", ".toList, inLine c := by decide
  have hname : ∀ c ∈ d.layout, (!isQuote c) = true := fun c hc => by
    simp [Name.not_isQuote_of_isNameChar (hd.layout.letters c hc)]
  obtain ⟨sc, rest', htext, hscope⟩ : (scopeOf view).StartsAt (lastAfter before ("layout".toList ++ " ".toList
      ++ [d.mark] ++ d.layout ++ [d.mark] ++ ", ".toList ++ "only:".toList ++ " ".toList))
      (d.scope.text ++ (d.trail ++ rest)) :=
    (startsAt_scopeOf_iff hd.views hview (hd.startsApart_trail hrest)).2 hmem
  refine ⟨"layout".toList ++ " ".toList ++ [d.mark] ++ d.layout ++ [d.mark] ++ ", ".toList ++ "only:".toList
    ++ " ".toList ++ sc, rest', ?_, ?_⟩
  · rw [stated_eq, htext]
    simp
  · refine matches_append.2 ⟨_, _, rfl, ?_, hscope⟩
    refine matches_append.2 ⟨_, _, rfl, ?_, matches_slack.2 hspace⟩
    refine matches_append.2 ⟨_, _, rfl, ?_, matches_literal.2 rfl⟩
    refine matches_append.2 ⟨_, _, rfl, ?_, matches_many.2 hline⟩
    refine matches_append.2 ⟨_, _, rfl, ?_, matches_quote.2 ⟨_, hd.mark, rfl⟩⟩
    refine matches_append.2 ⟨_, _, rfl, ?_, matches_capture.2 (matches_oneOrMore.2 ⟨hd.layout.ne_nil, hname⟩)⟩
    refine matches_append.2 ⟨_, _, rfl, ?_, matches_quote.2 ⟨_, hd.mark, rfl⟩⟩
    exact matches_append.2 ⟨_, _, rfl, matches_literal.2 rfl, matches_gap.2 ⟨by simp, hspace⟩⟩

end Setting.IsProper

-- ============================================================================= lines

/-- A line of a controller, without its newline. -/
inductive Line where
  /-- A directive. -/
  | setting (d : Setting)
  /-- Any other line. -/
  | other (t : Text)
  deriving Repr, DecidableEq

namespace Line

def text : Line → Text
  | setting d => d.indent ++ d.stated
  | other t => t

/-- Whether a directive is a proper one, and whether any other line is free of quotation marks. -/
def IsProper : Line → Prop
  | setting d => d.IsProper
  | other t => ∀ c ∈ t, c ≠ '\n' ∧ isQuote c = false

instance (l : Line) : Decidable l.IsProper :=
  match l with
  | setting d => inferInstanceAs (Decidable d.IsProper)
  | other t => inferInstanceAs (Decidable (∀ c ∈ t, c ≠ '\n' ∧ isQuote c = false))

/-- The layout that a line sets for a view. -/
def layoutFor? (view : Text) : Line → Option Text
  | setting d => if view ∈ d.scope.views then some d.layout else none
  | other _ => none

end Line

/-- The text of some lines. -/
def content (lines : List Line) : Text := Text.join ['\n'] (lines.map Line.text)

/-- What may follow a line. -/
structure Behind (rest : Text) : Prop where
  newline : ∀ c ∈ rest.head?, c = '\n'
  unquoted : ¬ StartsQuoted rest

theorem exists_of_startsAt_opening (h : opening.StartsAt before t) :
    ∃ g o r, t = ("layout".toList ++ g) ++ o :: r ∧ g ≠ [] ∧ (∀ c ∈ g, Text.isBlank c) ∧ isQuote o := by
  obtain ⟨_, r, rfl, h⟩ := h
  obtain ⟨_, _, rfl, h, hquote⟩ := matches_append.1 h
  obtain ⟨_, g, rfl, hkeyword, hgap⟩ := matches_append.1 h
  obtain rfl := matches_literal.1 hkeyword
  obtain ⟨o, ho, rfl⟩ := matches_quote.1 hquote
  obtain ⟨hne, hg⟩ := matches_gap.1 hgap
  exact ⟨g, o, r, by simp, hne, hg, ho⟩

/-- A declaration starts with the letter of its keyword. -/
theorem clear_of_notMem (h : 'l' ∉ t) : opening.Clear before t rest := by
  refine clear_iff.2 fun u v htext hne hstarts => h ?_
  obtain ⟨g, o, r, heq, -⟩ := exists_of_startsAt_opening hstarts
  obtain ⟨c, v, rfl⟩ := List.exists_cons_of_ne_nil hne
  obtain ⟨rfl, -⟩ : c = 'l' ∧ _ := List.cons_eq_cons.1 heq
  simp [htext]

/-- Where no quotation mark stands up to the end of the line none comes behind it. -/
theorem clear_unquoted (ht : ∀ c ∈ t, isQuote c = false) (hrest : Behind rest) : opening.Clear before t rest := by
  refine clear_iff.2 fun u v htext hne hstarts => ?_
  obtain ⟨g, o, r, heq, -, hg, ho⟩ := exists_of_startsAt_opening hstarts
  have hmark : o ∉ v := by
    intro hmem
    rw [ht o (by simp [htext, hmem])] at ho
    cases ho
  obtain ⟨z, hfront, rfl⟩ := Text.exists_append_of_notMem heq.symm hmark
  rcases List.append_eq_append_iff.1 hfront with ⟨y, rfl, rfl⟩ | ⟨y, hkeyword, rfl⟩
  · exact hrest.unquoted ⟨z, o, r, rfl, fun c hc => hg c (List.mem_append_right _ hc), ho⟩
  · cases y with
    | nil => exact hrest.unquoted ⟨g, o, r, by simp, hg, ho⟩
    | cons c y =>
        obtain rfl := hrest.newline c (by simp)
        exact absurd (by rw [hkeyword]; simp) (by decide : '\n' ∉ "layout".toList)

/-- Right in front of a quotation mark there is white space, and not a name. -/
theorem clear_name {q : Char} (ht : ∀ c ∈ t, Name.isNameChar c = true) (hq : isQuote q) :
    opening.Clear before t (q :: rest) := by
  refine clear_iff.2 fun u v htext hne hstarts => ?_
  have hv : ∀ c ∈ v, Name.isNameChar c = true := fun c hc => ht c (by simp [htext, hc])
  obtain ⟨g, o, r, heq, hgap, hg, ho⟩ := exists_of_startsAt_opening hstarts
  have hfront : ∀ c ∈ "layout".toList ++ g, isQuote c = false := by
    intro c hc
    rcases List.mem_append.1 hc with hc | hc
    · exact (by decide : ∀ c ∈ "layout".toList, isQuote c = false) c hc
    · exact Text.not_isQuote_of_isBlank (hg c hc)
  obtain ⟨hcut, -⟩ := Text.append_inj_of_span (P := fun c => !isQuote c) heq
    (fun c hc => by simp [Name.not_isQuote_of_isNameChar (hv c hc)]) (fun c hc => by simp [hfront c hc])
    (by simp [hq]) (by simp [ho])
  obtain ⟨c, g, rfl⟩ := List.exists_cons_of_ne_nil hgap
  have hblank := hg c (List.mem_cons_self ..)
  rw [Name.not_isBlank_of_isNameChar (hv c (by simp [hcut]))] at hblank
  cases hblank

namespace Setting.IsProper

variable {d : Setting} (hd : d.IsProper) (hrest : Behind rest)

include hd

/-- No declaration starts in front of the keyword of a directive. -/
theorem clear_indent : opening.Clear before d.indent rest :=
  clear_of_notMem fun hmem => by cases hd.indent _ hmem

include hrest

/-- No declaration starts behind the first letter of a directive. -/
theorem clear_behind_keyword : ∃ r, d.stated = 'l' :: r ∧ opening.Clear (some 'l') r rest := by
  refine ⟨("ayout ".toList ++ [d.mark]) ++ (d.layout ++ ([d.mark] ++ (", only: ".toList ++ (d.scope.text ++ d.trail)))),
    rfl, ?_⟩
  have hmark : 'l' ∉ [d.mark] := by
    rw [List.mem_singleton]
    intro heq
    cases heq ▸ hd.mark
  have hletters : 'l' ∉ "ayout ".toList := by decide
  refine clear_append.2 ⟨clear_of_notMem (by simp [hmark]), clear_append.2 ⟨clear_name hd.layout.letters hd.mark,
    clear_append.2 ⟨clear_of_notMem hmark, clear_unquoted (fun c hc => ?_) hrest⟩⟩⟩
  rcases List.mem_append.1 hc with hc | hc
  · exact (by decide : ∀ c ∈ ", only: ".toList, isQuote c = false) c hc
  · rcases List.mem_append.1 hc with hc | hc
    · refine Scope.forall_text (P := fun c => isQuote c = false) (by decide) (fun v hv c hc => ?_) c hc
      exact Name.not_isQuote_of_isNameChar ((hd.views v hv).letters c hc)
    · exact Text.not_isQuote_of_isBlank (hd.trail c hc).1

end Setting.IsProper

-- ============================================================================ searching

/-- The layout of the first directive for a view from a place on. -/
def found (view : Text) (before : Option Char) (t : Text) : Option Text :=
  ((directiveFor view).firstFrom before t).map fun (_, hit, _) => hit.group 1

theorem layoutFor?_eq_found (view t : Text) : layoutFor? view t = found view none t := by
  rw [layoutFor?, first?_eq]
  rfl

theorem startsAt_opening (h : (directiveFor view).StartsAt before t) : opening.StartsAt before t :=
  h.left.left.left.left.left.left

theorem found_of_clear (h : (directiveFor view).Clear before t rest) :
    found view before (t ++ rest) = found view (lastAfter before t) rest := by
  rw [found, firstFrom_of_clear h, Option.map_map]
  rfl

namespace Setting.IsProper

variable {d : Setting} (hd : d.IsProper) (hview : IsName view) (hrest : Behind rest)

include hd hview hrest

/-- A directive whose scope lists the view is the first one from its keyword on. -/
theorem found_of_mem (hmem : view ∈ d.scope.views) : found view before (d.stated ++ rest) = some d.layout := by
  obtain ⟨u, rest', htext, hmatches⟩ : (directiveFor view).StartsAt before (d.stated ++ rest) :=
    hd.startsAt_stated hview hrest.newline hmem
  obtain ⟨hit, hmatch⟩ := matchAt_complete hmatches
  rw [← htext] at hmatch
  obtain ⟨rest'', htext', haccepts⟩ := matchAt_sound hmatch
  obtain ⟨hkept, -⟩ := hd.of_accepts hview hrest.newline haccepts htext'.symm
  have hgroup : hit.group 1 = d.layout := by
    rw [Hit.group, Hit.group?, hkept]
    rfl
  obtain ⟨r, hr, -⟩ := hd.clear_behind_keyword hrest
  rw [hr, List.cons_append] at hmatch ⊢
  rw [found, firstFrom, hmatch]
  exact congrArg some hgroup

/-- A directive whose scope does not list the view is passed over. -/
theorem found_of_notMem (hmem : view ∉ d.scope.views) :
    found view before (d.stated ++ rest) = found view (lastAfter before d.stated) rest := by
  refine found_of_clear ?_
  obtain ⟨r, hr, hclear⟩ := hd.clear_behind_keyword hrest
  have hhere : ¬ (directiveFor view).StartsAt before (d.stated ++ rest) := by
    rintro ⟨u, rest', htext, kept, haccepts⟩
    exact hmem (hd.of_accepts hview hrest.newline haccepts htext.symm).2
  rw [hr] at hhere ⊢
  exact clear_cons.2 ⟨matchAt_eq_none_iff_not_startsAt.2 hhere, hclear.mono fun _ _ => startsAt_opening⟩

end Setting.IsProper

/-- A line sets a layout, or the search goes on behind it. -/
theorem found_line {l : Line} (hl : l.IsProper) (hview : IsName view) (hrest : Behind rest) :
    found view before (l.text ++ rest)
      = (l.layoutFor? view <|> found view (lastAfter before l.text) rest) := by
  cases l with
  | other t =>
      exact found_of_clear ((clear_unquoted (fun c hc => (hl c hc).2) hrest).mono fun _ _ => startsAt_opening)
  | setting d =>
      have hd : d.IsProper := hl
      rw [Line.text, List.append_assoc, found_of_clear (hd.clear_indent.mono fun _ _ => startsAt_opening),
        lastAfter_append]
      by_cases hmem : view ∈ d.scope.views
      · rw [hd.found_of_mem hview hrest hmem, Line.layoutFor?, if_pos hmem]
        rfl
      · rw [hd.found_of_notMem hview hrest hmem, Line.layoutFor?, if_neg hmem]
        rfl

theorem not_startsQuoted_append (ht : ∀ c ∈ t, isQuote c = false) (hrest : ¬ StartsQuoted rest) :
    ¬ StartsQuoted (t ++ rest) := by
  rintro ⟨w, q, r, heq, hw, hq⟩
  have hmark : q ∉ t := by
    intro hmem
    rw [ht q hmem] at hq
    cases hq
  obtain ⟨z, rfl, hz⟩ := Text.exists_append_of_notMem heq.symm hmark
  exact hrest ⟨z, q, r, hz, fun c hc => hw c (List.mem_append_right _ hc), hq⟩

/-- No line starts with a quotation mark. -/
theorem not_startsQuoted_line {l : Line} (hl : l.IsProper) (hrest : ¬ StartsQuoted rest) :
    ¬ StartsQuoted (l.text ++ rest) := by
  cases l with
  | other t => exact not_startsQuoted_append (fun c hc => (hl c hc).2) hrest
  | setting d =>
      have hd : d.IsProper := hl
      refine Directives.not_startsQuoted ⟨d.indent, 'l', _, List.append_assoc .., fun c hc => ?_, by decide, by decide⟩
      exact Text.isBlank_of_isSpacing (hd.indent c hc)

/-- The lines behind a line start with the newline that ends it, if there are any. -/
theorem content_cons (l : Line) (lines : List Line) :
    ∃ rest, content (l :: lines) = l.text ++ rest ∧ (lines = [] ∧ rest = [] ∨ rest = '\n' :: content lines) := by
  by_cases hnil : lines = []
  · exact ⟨[], by simp [hnil, content, Text.join, List.intercalate], .inl ⟨hnil, rfl⟩⟩
  · refine ⟨'\n' :: content lines, ?_, .inr rfl⟩
    rw [content, List.map_cons, Text.join_cons _ _ (by simpa using hnil)]
    rfl

/-- From line to line, a search comes to the first directive for the view. -/
theorem found_content {lines : List Line} (hlines : ∀ l ∈ lines, l.IsProper) (hview : IsName view) :
    ¬ StartsQuoted (content lines)
      ∧ ∀ before, found view before (content lines) = lines.findSome? (Line.layoutFor? view) := by
  induction lines with
  | nil =>
      refine ⟨?_, fun _ => rfl⟩
      rintro ⟨w, q, r, hnil, -⟩
      simp [content, Text.join, List.intercalate] at hnil
  | cons l lines ih =>
      obtain ⟨hquoted, hfound⟩ := ih fun l hl => hlines l (List.mem_cons_of_mem _ hl)
      obtain ⟨rest, hcontent, hrest⟩ := content_cons l lines
      have hbehind : Behind rest ∧ ∀ before, found view before rest = lines.findSome? (Line.layoutFor? view) := by
        rcases hrest with ⟨rfl, rfl⟩ | rfl
        · refine ⟨⟨by simp, ?_⟩, fun _ => rfl⟩
          rintro ⟨w, q, r, hnil, -⟩
          simp at hnil
        · refine ⟨⟨by simp, not_startsQuoted_append (t := ['\n']) (by decide) hquoted⟩, fun before => ?_⟩
          have hnewline : opening.Clear before ['\n'] (content lines) := clear_of_notMem (by decide)
          exact (found_of_clear (hnewline.mono fun _ _ => startsAt_opening)).trans (hfound _)
      have hl := hlines l (List.mem_cons_self ..)
      rw [hcontent]
      refine ⟨not_startsQuoted_line hl hbehind.1.unquoted, fun before => ?_⟩
      rw [found_line hl hview hbehind.1, hbehind.2, List.findSome?_cons]
      cases l.layoutFor? view with
      | none => rfl
      | some layout => rfl

/-- The layout for a view is that of the first directive whose scope lists the view. -/
theorem layoutFor?_content {lines : List Line} (hlines : ∀ l ∈ lines, l.IsProper) (hview : IsName view) :
    layoutFor? view (content lines) = lines.findSome? (Line.layoutFor? view) := by
  rw [layoutFor?_eq_found]
  exact (found_content hlines hview).2 none

/-- A controller in which a view is listed after two whose names hold its name, and once more. -/
def shop : List Line :=
  [.other "class HomeController < ApplicationController",
    .setting ⟨"  ", '"', "shelf", .symbols ["carts".toList, "my_cart".toList], ""⟩,
    .setting ⟨"  ", '\'', "till", .words ["pay".toList, "cart".toList], ""⟩,
    .setting ⟨"  ", '"', "late", .symbol "cart", " "⟩,
    .other "end"]

theorem layoutFor?_content_shop : (∀ l ∈ shop, l.IsProper) ∧ IsName "cart"
    ∧ layoutFor? "cart" (content shop) = some "till" := by
  have hlines : ∀ l ∈ shop, l.IsProper := by decide
  have hview : IsName "cart" := by decide
  exact ⟨hlines, hview, (layoutFor?_content hlines hview).trans (by decide)⟩

end Patch.LayoutDirective

end SiteScaffold

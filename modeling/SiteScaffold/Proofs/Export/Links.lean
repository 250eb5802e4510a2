/-
What cleaning does to the links of a page. Both rules for links together lead those with the
index page of some folder as their value to the root, on whatever host the folder is, and
change nothing else (`Relinked`). Then tags with tokens are dropped, and with them what stands
in them; every other link is still there, with its value and in its place (`clean_links`).

Links may overlap: the value of one goes on up to the next quotation mark, which may be the
one that another link opens with. A link that is led to the root ends in the name of the index
page, so no link opens at its end (`links_apart`), and places of links are places where the
page and what becomes of it fall apart alike (`Relinked.at_link`). For the same reason the
second rule finds what it would have found on the page at first (`Relinked.trans`).
-/
import SiteScaffold.Proofs.Export.Cleanup

namespace SiteScaffold.Export.Html

open Pattern
open Text (Edited)

variable {P Q : Text → Prop} {p : Pattern} {before : Option Char} {a b mid new page s t u v w : Text}

-- ========================================================================= links

/-- What becomes of a page when links are led to the root if their values are among those told,
and all else stays. -/
inductive Relinked (P : Text → Prop) : Text → Text → Prop
  | nil : Relinked P [] []
  | plain (c : Char) (t new : Text) (hhere : ¬ Leads opening (LinksTo P) (c :: t))
      (htail : Relinked P t new) : Relinked P (c :: t) (c :: new)
  | led (v t new : Text) (hquote : '"' ∉ v) (hvalue : P v) (htail : Relinked P t new) :
      Relinked P (opening ++ (v ++ '"' :: t)) (homeLink ++ new)

theorem opening_cons : opening = 'h' :: ("ref=".toList ++ ['"']) := by decide

theorem leads_link (hquote : '"' ∉ v) (hvalue : P v) :
    Leads opening (LinksTo P) (opening ++ (v ++ '"' :: t)) :=
  ⟨_, rfl, v, t, rfl, hquote, hvalue⟩

theorem leads_append (h : Leads opening (LinksTo P) t) : Leads opening (LinksTo P) (t ++ u) := by
  obtain ⟨_, rfl, v, r, rfl, hquote, hvalue⟩ := h
  rw [List.append_assoc, List.append_assoc, List.cons_append]
  exact leads_link hquote hvalue

/-- The value of a link is known from where the link opens. -/
theorem value_unique {r r' : Text} (h : opening ++ (v ++ '"' :: r) = opening ++ (w ++ '"' :: r'))
    (hv : '"' ∉ v) (hw : '"' ∉ w) : v = w ∧ r = r' := by
  have hcut := List.append_cancel_left h
  obtain rfl := Text.eq_of_first hcut hv hw
  exact ⟨rfl, (List.cons_eq_cons.1 (List.append_cancel_left hcut)).2⟩

/-- Of two links one opens behind the end of the other, or both open at one place. The value of
the first one would else end where the other one opens. -/
theorem links_apart (hquote : '"' ∉ v) (hlast : v.getLast? ≠ some '=')
    (h : opening ++ (v ++ '"' :: t) = a ++ (opening ++ s)) :
    a = [] ∨ ∃ z, a = opening ++ (v ++ '"' :: z) ∧ t = z ++ (opening ++ s) := by
  by_cases ha : '"' ∈ a
  · obtain ⟨x, y, rfl, hx⟩ := List.eq_append_cons_of_mem ha
    have hcut : "href=".toList ++ '"' :: (v ++ '"' :: t) = x ++ '"' :: (y ++ (opening ++ s)) := by
      simpa [opening] using h
    obtain rfl := Text.eq_of_first hcut (by decide) hx
    have hvalue : v ++ '"' :: t = y ++ (opening ++ s) := (List.cons_eq_cons.1 (List.append_cancel_left hcut)).2
    by_cases hy : '"' ∈ y
    · obtain ⟨y, z, rfl, hfirst⟩ := List.eq_append_cons_of_mem hy
      have hclose : v ++ '"' :: t = y ++ '"' :: (z ++ (opening ++ s)) := by simpa using hvalue
      obtain rfl := Text.eq_of_first hclose hquote hfirst
      exact .inr ⟨z, by simp [opening], (List.cons_eq_cons.1 (List.append_cancel_left hclose)).2⟩
    · have hclose : v ++ '"' :: t = (y ++ "href=".toList) ++ '"' :: s := by
        simpa [opening] using hvalue
      have hmem : '"' ∉ y ++ "href=".toList := by
        rw [List.mem_append, not_or]
        exact ⟨hy, by decide⟩
      obtain rfl := Text.eq_of_first hclose hquote hmem
      refine absurd ?_ hlast
      rw [List.getLast?_append]
      rfl
  · have hcut : "href=".toList ++ '"' :: (v ++ '"' :: t) = (a ++ "href=".toList) ++ '"' :: s := by
      simpa [opening] using h
    have hmem : '"' ∉ a ++ "href=".toList := by
      rw [List.mem_append, not_or]
      exact ⟨ha, by decide⟩
    have hsame : [] ++ "href=".toList = a ++ "href=".toList := Text.eq_of_first hcut (by decide) hmem
    exact .inl (List.append_cancel_right hsame).symm

/-- A rule for links leads those that it looks for. -/
theorem LinkRule.relinked (hrule : LinkRule p P) (h : Rewritten p (fun _ => homeLink) before t new) :
    Relinked P t new := by
  induction h with
  | nil => exact .nil
  | plain before c t new hhere htail ih =>
      refine .plain c t new (fun hleads => ?_) ih
      exact matchAt_eq_none_iff_not_startsAt.1 hhere ((hrule.startsAt _ _).2 hleads)
  | hit before h t new hne hhere htail ih =>
      obtain ⟨v, htext, hquote⟩ := hrule.hit _ _ _ hhere
      obtain ⟨rest, hsplit, haccepts⟩ := matchAt_sound hhere
      obtain ⟨_, hopens, w, r, rfl, hquote', hvalue⟩ :=
        (hrule.startsAt before (h.text ++ t)).1 ⟨_, rest, hsplit, _, haccepts⟩
      rw [htext, List.append_assoc, List.append_assoc, List.singleton_append] at hopens
      obtain ⟨rfl, -⟩ := value_unique hopens hquote hquote'
      rw [htext, List.append_assoc, List.append_assoc, List.singleton_append]
      exact .led v t new hquote hvalue ih

namespace Relinked

/-- Off the letter that links start with, both texts go on alike. -/
theorem skip (hu : 'h' ∉ u) (h : Relinked P (u ++ t) new) :
    ∃ new', new = u ++ new' ∧ Relinked P t new' := by
  induction u generalizing new with
  | nil => exact ⟨new, rfl, h⟩
  | cons c u ih =>
      rw [List.cons_append] at h
      generalize hold : c :: (u ++ t) = old at h
      obtain ⟨hc, hu⟩ := not_or.1 (mt List.mem_cons.2 hu)
      cases h with
      | nil => cases hold
      | plain d t new hhere htail =>
          obtain ⟨rfl, rfl⟩ := List.cons_eq_cons.1 hold
          obtain ⟨new', rfl, hrest⟩ := ih hu htail
          exact ⟨new', rfl, hrest⟩
      | led v t new hquote hvalue htail =>
          rw [opening_cons] at hold
          exact absurd (List.cons_eq_cons.1 hold).1.symm hc

/-- So they do up to the first quotation mark. -/
theorem split_quote (hu : '"' ∉ u) (h : Relinked P (u ++ '"' :: t) new) : ∃ t', new = u ++ '"' :: t' := by
  generalize hold : u ++ '"' :: t = old at h
  induction h generalizing u with
  | nil => simp at hold
  | plain c t new hhere htail ih =>
      cases u with
      | nil =>
          obtain ⟨rfl, -⟩ := List.cons_eq_cons.1 hold
          exact ⟨new, rfl⟩
      | cons d u =>
          obtain ⟨rfl, htext⟩ := List.cons_eq_cons.1 hold
          obtain ⟨t', rfl⟩ := ih (fun hmem => hu (List.mem_cons_of_mem _ hmem)) htext
          exact ⟨t', rfl⟩
  | led v r new hquote hvalue htail ih =>
      have hcut : u ++ '"' :: t = "href=".toList ++ '"' :: (v ++ '"' :: r) := by
        simpa [opening] using hold
      obtain rfl := Text.eq_of_first hcut hu (by decide)
      exact ⟨'/' :: '"' :: new, by rw [homeLink_eq]; simp [opening]⟩

/-- A link with another value stays. -/
theorem stays (hquote : '"' ∉ v) (hvalue : ¬ P v) (h : Relinked P (opening ++ (v ++ '"' :: b)) new) :
    ∃ b', new = opening ++ (v ++ '"' :: b') ∧ Relinked P (v ++ '"' :: b) (v ++ '"' :: b') := by
  generalize hold : opening ++ (v ++ '"' :: b) = old at h
  cases h with
  | nil => simp [opening] at hold
  | led w t new hquote' hvalue' htail =>
      obtain ⟨rfl, -⟩ := value_unique hold hquote hquote'
      exact absurd hvalue' hvalue
  | plain c t new hhere htail =>
      rw [opening_cons] at hold
      obtain ⟨rfl, rfl⟩ := List.cons_eq_cons.1 hold
      obtain ⟨rest, rfl, hrest⟩ := htail.skip (by decide)
      obtain ⟨b', rfl⟩ := hrest.split_quote hquote
      exact ⟨b', by rw [opening_cons]; rfl, hrest⟩

/-- Where a link opens, both texts fall apart. -/
theorem at_link (hlast : ∀ v, P v → v.getLast? ≠ some '=') (h : Relinked P (a ++ (opening ++ s)) new) :
    ∃ a' s', new = a' ++ s' ∧ Relinked P a a' ∧ Relinked P (opening ++ s) s' := by
  generalize hold : a ++ (opening ++ s) = old at h
  induction h generalizing a with
  | nil => simp [opening] at hold
  | plain c t new hhere htail ih =>
      cases a with
      | nil =>
          rw [List.nil_append] at hold
          rw [hold]
          exact ⟨[], _, rfl, .nil, .plain c t new hhere htail⟩
      | cons d a =>
          obtain ⟨rfl, rfl⟩ := List.cons_eq_cons.1 hold
          obtain ⟨a', s', rfl, ha, hs⟩ := ih rfl
          refine ⟨d :: a', s', rfl, .plain d a a' (fun hleads => ?_) ha, hs⟩
          exact hhere (leads_append hleads)
  | led v t new hquote hvalue htail ih =>
      rcases links_apart hquote (hlast v hvalue) hold.symm with rfl | ⟨z, rfl, rfl⟩
      · rw [List.nil_append] at hold
        rw [hold]
        exact ⟨[], _, rfl, .nil, .led v t new hquote hvalue htail⟩
      · obtain ⟨z', s', rfl, hz, hs⟩ := ih rfl
        exact ⟨homeLink ++ z', s', (List.append_assoc ..).symm, .led v z z' hquote hvalue hz, hs⟩

/-- Along a text in which no link to the root can start, the old text goes on like the new
one. -/
theorem back (hu : 'r' ∉ u.tail) (hend : u.getLast? ≠ some 'h') (h : Relinked P t (u ++ s)) :
    ∃ t', t = u ++ t' ∧ Relinked P t' s := by
  induction u generalizing t with
  | nil => exact ⟨t, rfl, h⟩
  | cons c u ih =>
      rw [List.cons_append] at h
      generalize hnew : c :: (u ++ s) = new at h
      cases h with
      | nil => cases hnew
      | plain d t new hhere htail =>
          obtain ⟨rfl, rfl⟩ := List.cons_eq_cons.1 hnew
          have hend' : u.getLast? ≠ some 'h' := by
            intro hlast
            cases u with
            | nil => cases hlast
            | cons d u => exact hend (by rwa [List.getLast?_cons_cons])
          obtain ⟨t', rfl, hrest⟩ := ih (fun hmem => hu (List.mem_of_mem_tail hmem)) hend' htail
          exact ⟨t', rfl, hrest⟩
      | led v t new hquote hvalue htail =>
          have hroot : homeLink = 'h' :: 'r' :: ("ef=".toList ++ ['"', '/', '"']) := by decide
          rw [hroot] at hnew
          obtain ⟨rfl, htext⟩ := List.cons_eq_cons.1 hnew
          cases u with
          | nil => exact absurd rfl hend
          | cons d u =>
              obtain ⟨rfl, -⟩ := List.cons_eq_cons.1 htext
              exact absurd (List.mem_cons_self ..) hu

/-- A link that stands in the new text behind its first letter stands in the old one. -/
theorem back_link (hvalue : 'r' ∉ v) (h : Relinked P t ("ref=".toList ++ ['"'] ++ (v ++ '"' :: s))) :
    ∃ t', 'h' :: t = opening ++ (v ++ '"' :: t') ∧ Relinked P t' s := by
  have hsplit : "ref=".toList ++ ['"'] ++ (v ++ '"' :: s) = ("ref=".toList ++ ('"' :: (v ++ ['"']))) ++ s := by simp
  have hend : ("ref=".toList ++ ('"' :: (v ++ ['"']))).getLast? ≠ some 'h' := by
    rw [← List.cons_append, ← List.append_assoc, List.getLast?_concat]
    decide
  have hmem : 'r' ∉ ("ref=".toList ++ ('"' :: (v ++ ['"']))).tail := by
    simpa using hvalue
  rw [hsplit] at h
  obtain ⟨t', rfl, hback⟩ := h.back hmem hend
  refine ⟨t', ?_, hback⟩
  rw [opening_cons]
  simp

/-- A link that one of two rules leads is there for the second one if the first one leaves it. -/
theorem not_leads {r : Text} (h : Relinked P t r) (hhere : ¬ Leads opening (LinksTo P) t)
    (hthere : ¬ Leads opening (LinksTo Q) r) : ¬ Leads opening (LinksTo fun v => P v ∨ Q v) t := by
  rintro ⟨_, rfl, v, b, rfl, hquote, hvalue⟩
  by_cases hP : P v
  · exact hhere ⟨_, rfl, v, b, rfl, hquote, hP⟩
  · obtain ⟨b', rfl, -⟩ := h.stays hquote hP
    exact hthere (leads_link hquote (hvalue.resolve_left hP))

/-- Two rules one after the other do what they do at once, if the second one looks neither for
the root nor for a value in which a link to the root could start. -/
theorem trans (hroot : ¬ Q ['/']) (hletter : ∀ v, Q v → 'r' ∉ v) (h : Relinked P t mid)
    (h' : Relinked Q mid new) : Relinked (fun v => P v ∨ Q v) t new := by
  -- on the length: a link that the second rule leads is several characters of the first text
  induction hlen : t.length using Nat.strongRecOn generalizing t mid new with
  | ind n ih =>
      cases h with
      | nil =>
          cases h'
          exact .nil
      | led v t mid hquote hvalue htail =>
          have hlink : homeLink ++ mid = opening ++ (['/'] ++ '"' :: mid) := by
            rw [homeLink_eq]
            simp
          rw [hlink] at h'
          obtain ⟨new, rfl, hrest⟩ := h'.stays (by decide) hroot
          obtain ⟨new', heq, hnew⟩ := hrest.skip (u := ['/', '"']) (by decide)
          obtain rfl : new = new' := by simpa using heq
          have htail' := ih t.length (by rw [← hlen]; simp [opening]; omega) htail hnew rfl
          have hled := Relinked.led v t new hquote (.inl hvalue) htail'
          rw [homeLink_eq] at hled
          simpa using hled
      | plain c t mid hhere htail =>
          generalize hmid : c :: mid = text at h'
          cases h' with
          | nil => cases hmid
          | plain d r new hthere hrest =>
              obtain ⟨rfl, rfl⟩ := List.cons_eq_cons.1 hmid
              refine .plain c t new ((Relinked.plain c t mid hhere htail).not_leads hhere hthere) ?_
              exact ih t.length (by rw [← hlen]; simp) htail hrest rfl
          | led v r new hquote hvalue hrest =>
              rw [opening_cons, List.cons_append] at hmid
              obtain ⟨rfl, rfl⟩ := List.cons_eq_cons.1 hmid
              obtain ⟨r', hlink, hback⟩ := htail.back_link (hletter v hvalue)
              rw [hlink] at hlen ⊢
              exact .led v r' new hquote (.inr hvalue)
                (ih r'.length (by rw [← hlen]; simp [opening]; omega) hback hrest rfl)

end Relinked

-- ========================================================================== tags

/-- A tag is dropped. -/
def Dropped (x y : Text) : Prop := IsTag x ∧ y = []

theorem edited_of_deleted (h : Deleted before t new) : Edited Dropped t new := by
  induction h with
  | nil => exact .nil
  | plain before c t new hhere htail ih => exact .plain c t new ih
  | hit before h t new hne hhere htail ih => exact .swap h.text [] t new ⟨isTag_of_matchAt hhere, rfl⟩ ih

/-- A stretch without brackets stays, or it goes with a tag that it stands in. -/
theorem stays_or_dropped (hne : w ≠ []) (hopen : '<' ∉ w) (hclose : '>' ∉ w)
    (h : Edited Dropped (a ++ (w ++ b)) new) :
    (∃ a' b', new = a' ++ (w ++ b') ∧ Edited Dropped a a' ∧ Edited Dropped b b')
      ∨ ∃ s m m' t, a = s ++ m ∧ b = m' ++ t ∧ IsTag (m ++ (w ++ m')) := by
  have hfront : ∀ {new}, Edited Dropped (w ++ b) new → ∃ b', new = w ++ b' ∧ Edited Dropped b b' := by
    intro new h
    refine h.split_front (P := (· ≠ '<')) ?_ fun c hc heq => hopen (heq ▸ hc)
    rintro x y ⟨htag, -⟩
    obtain ⟨r, rfl⟩ := htag.exists_cons
    exact ⟨'<', r, rfl, by simp⟩
  generalize hold : a ++ (w ++ b) = old at h
  induction h generalizing a with
  | nil => simp [hne] at hold
  | plain c t new htail ih =>
      cases a with
      | nil =>
          have hall : Edited Dropped (w ++ b) (c :: new) := by
            rw [← List.nil_append (w ++ b), hold]
            exact .plain c t new htail
          obtain ⟨b', hnew, hb⟩ := hfront hall
          exact .inl ⟨[], b', hnew, .nil, hb⟩
      | cons d a =>
          obtain ⟨rfl, htext⟩ := List.cons_eq_cons.1 hold
          rcases ih htext with ⟨a', b', rfl, ha, hb⟩ | ⟨s, m, m', t, rfl, hb, htag⟩
          · exact .inl ⟨d :: a', b', rfl, .plain d a a' ha, hb⟩
          · exact .inr ⟨d :: s, m, m', t, rfl, hb, htag⟩
  | swap x y t new hdropped htail ih =>
      obtain ⟨htag, rfl⟩ := id hdropped
      have hbehind : ∀ z, a = x ++ z → z ++ (w ++ b) = t →
          (∃ a' b', [] ++ new = a' ++ (w ++ b') ∧ Edited Dropped a a' ∧ Edited Dropped b b')
            ∨ ∃ s m m' t, a = s ++ m ∧ b = m' ++ t ∧ IsTag (m ++ (w ++ m')) := by
        rintro z rfl htext
        rcases ih htext with ⟨a', b', rfl, ha, hb⟩ | ⟨s, m, m', t, rfl, hb, htag'⟩
        · exact .inl ⟨[] ++ a', b', rfl, .swap x [] z a' hdropped ha, hb⟩
        · exact .inr ⟨x ++ s, m, m', t, (List.append_assoc ..).symm, hb, htag'⟩
      rcases List.append_eq_append_iff.1 hold with ⟨z, hx, hz⟩ | ⟨z, ha, hz⟩
      · rcases List.eq_nil_or_concat' z with rfl | ⟨z, c, rfl⟩
        · rw [List.append_nil] at hx
          exact hbehind [] (by rw [hx, List.append_nil]) hz
        · -- a tag that reaches into the stretch does not end in it
          rcases List.append_eq_append_iff.1 hz with ⟨m', hm, hb⟩ | ⟨y, hw, -⟩
          · rw [hm] at hx
            exact .inr ⟨[], a, m', t, rfl, hb, hx ▸ htag⟩
          · have hlast := htag.getLast?
            rw [hx, ← List.append_assoc, List.getLast?_concat] at hlast
            obtain rfl := Option.some.inj hlast
            simp [hw] at hclose
      · exact hbehind z ha hz.symm

-- ========================================================================== pages

/-- An index page, whatever host the value of a link names. -/
def IsIndex (v : Text) : Prop := IsNested v ∨ IsBare v

theorem IsIndex.getLast? (h : IsIndex v) : v.getLast? ≠ some '=' := by
  have hnested : "/index.html".toList.getLast? = some 'l' := by decide
  have hbare : "index.html".toList.getLast? = some 'l' := by decide
  rcases h with ⟨front, rfl⟩ | rfl
  · rw [List.getLast?_append, hnested, Option.some_or]
    decide
  · rw [hbare]
    decide

/-- What cleaning makes of a page, where `linked` is the page with its links led. -/
structure Cleaned (page linked new : Text) : Prop where
  /-- Links to index pages, on whatever host, are led to the root, and all else stays. -/
  led : Relinked IsIndex page linked
  /-- All other links keep their values and their places. -/
  kept : ∀ a v b, page = a ++ (opening ++ (v ++ '"' :: b)) → '"' ∉ v → ¬ IsIndex v →
    ∃ a' b', linked = a' ++ (opening ++ (v ++ '"' :: b')) ∧ Relinked IsIndex a a'
      ∧ Relinked IsIndex (v ++ '"' :: b) (v ++ '"' :: b')
  /-- Of the page with its links led nothing is dropped but tags with tokens. -/
  dropped : Edited Dropped linked new
  /-- A link is still there then, or it stood in a tag that is dropped. -/
  whole : ∀ a v b, linked = a ++ (opening ++ (v ++ '"' :: b)) → '<' ∉ v → '>' ∉ v →
    (∃ a' b', new = a' ++ (opening ++ (v ++ '"' :: b')) ∧ Edited Dropped a a' ∧ Edited Dropped b b')
      ∨ ∃ s m m' t, a = s ++ m ∧ b = m' ++ t ∧ IsTag (m ++ (opening ++ (v ++ '"' :: m')))

/-- The links that both rules lead are those to index pages. -/
theorem relinked_isIndex (page : Text) : Relinked IsIndex page
    (bareIndexLink.rewrite (fun _ => homeLink) (nestedIndexLink.rewrite (fun _ => homeLink) page)) := by
  have hletter : ∀ v, IsBare v → 'r' ∉ v := by
    rintro v rfl
    decide
  have hnested := linkRule_nested.relinked (linkRule_nested.rewritten page)
  generalize nestedIndexLink.rewrite (fun _ => homeLink) page = mid at hnested ⊢
  have hbare := linkRule_bare.relinked (linkRule_bare.rewritten mid)
  exact hnested.trans not_isBare_root hletter hbare

/-- A link without brackets stays, or it goes with a tag that it stands in. -/
theorem link_stays_or_dropped (hopen : '<' ∉ v) (hclose : '>' ∉ v)
    (h : Edited Dropped (a ++ (opening ++ (v ++ '"' :: b))) new) :
    (∃ a' b', new = a' ++ (opening ++ (v ++ '"' :: b')) ∧ Edited Dropped a a' ∧ Edited Dropped b b')
      ∨ ∃ s m m' t, a = s ++ m ∧ b = m' ++ t ∧ IsTag (m ++ (opening ++ (v ++ '"' :: m'))) := by
  have hsplit : ∀ b, opening ++ (v ++ '"' :: b) = (opening ++ (v ++ ['"'])) ++ b := by
    intro b
    simp
  have hbrackets : ∀ c ∈ ['<', '>'], c ∉ v → c ∉ opening ++ (v ++ ['"']) := by
    have hlead : ∀ c ∈ ['<', '>'], c ∉ opening ∧ c ∉ ['"'] := by decide
    intro c hc hv
    simp only [List.mem_append, not_or]
    exact ⟨(hlead c hc).1, hv, (hlead c hc).2⟩
  rw [hsplit] at h
  rcases stays_or_dropped (by simp [opening]) (hbrackets _ (by simp) hopen) (hbrackets _ (by simp) hclose) h
    with ⟨a', b', hnew, ha, hb⟩ | ⟨s, m, m', t, ha, hb, htag⟩
  · exact .inl ⟨a', b', by rw [hsplit, hnew], ha, hb⟩
  · exact .inr ⟨s, m, m', t, ha, hb, by rwa [hsplit]⟩

/-- Cleaning leads the links to index pages, on whatever host, and drops tags with tokens. It
changes nothing else, so every other link keeps its value. -/
theorem clean_links (page : Text) : ∃ linked, Cleaned page linked (clean page) := by
  have hled := relinked_isIndex page
  unfold clean
  dsimp only
  generalize bareIndexLink.rewrite (fun _ => homeLink) (nestedIndexLink.rewrite (fun _ => homeLink) page)
    = linked at hled ⊢
  have hdropped := edited_of_deleted (deleted_delete linked)
  generalize tokenTag.delete linked = new at hdropped ⊢
  refine ⟨linked, hled, fun a v b htext hquote hvalue => ?_, hdropped, fun a v b htext hopen hclose => ?_⟩
  · rw [htext] at hled
    obtain ⟨a', s', rfl, ha, hs⟩ := hled.at_link fun v hv => hv.getLast?
    obtain ⟨b', rfl, hb⟩ := hs.stays hquote hvalue
    exact ⟨a', b', rfl, ha, hb⟩
  · rw [htext] at hdropped
    exact link_stays_or_dropped hopen hclose hdropped

/-- A link to the index page of another host is led to the root of the site. -/
theorem clean_leads_remote_link :
    clean "<a href=\"https://example.com/index.html\">x</a>" = "<a href=\"/\">x</a>".toList := by
  decide +kernel

end SiteScaffold.Export.Html

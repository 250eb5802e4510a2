/-
Cleaning a page once is enough, and what relocation has settled stays settled. A page that
is tidy before it is cleaned is left alone by a second pass of all rules
(`finished_of_tidy`).

# Why no rule makes work for another one

- A link that is led to the root starts and ends like the one it stands for, so links lie
  where they lay and none but those has a new value (`opening_of_rewritten`).
- A tag that is dropped stood alone on its line. What is read on one line stays on it
  (`run_of_deleted`), and a link is read on one line on a tidy page.
- References are read between blanks and quotation marks (`Local`), and all that comes and
  goes does so between these.
-/
import SiteScaffold.Proofs.Export.Tidy

namespace SiteScaffold.Export.Html

open Pattern
open Text (Edited isBlank)

variable {P Q : Text → Prop} {p : Pattern} {before : Option Char} {a b b' new page s t u : Text}
  {lead : Text} {goesOn : Text → Prop}

-- ========================================================================= links

/-- The value of a link is one of those told. -/
def LinksTo (P : Text → Prop) (t : Text) : Prop := ∃ v r, t = v ++ '"' :: r ∧ '"' ∉ v ∧ P v

/-- A pattern of links with some values. -/
structure LinkRule (p : Pattern) (P : Text → Prop) : Prop where
  startsAt : ∀ before t, p.StartsAt before t ↔ Leads opening (LinksTo P) t
  hit : ∀ before t hit, p.matchAt ⟨before, t⟩ = some hit →
    ∃ v, hit.text = opening ++ (v ++ ['"']) ∧ '"' ∉ v

/-- The index page of a folder. -/
def IsNested (v : Text) : Prop := "/index.html".toList <:+ v

/-- The index page beside the page. -/
def IsBare (v : Text) : Prop := v = "index.html".toList

theorem not_isNested_root : ¬ IsNested ['/'] := by
  unfold IsNested
  decide

theorem not_isBare_root : ¬ IsBare ['/'] := by
  unfold IsBare
  decide

theorem opening_eq : "href=\"".toList = opening := by decide

theorem homeLink_eq : homeLink = opening ++ ['/', '"'] := by decide

theorem linkRule_nested : LinkRule nestedIndexLink IsNested := by
  have hmatches : ∀ {before t rest}, nestedIndexLink.Matches before t rest ↔
      ∃ v, t = opening ++ (v ++ ['"']) ∧ '"' ∉ v ∧ IsNested v := by
    intro before t rest
    have hend : "/index.html\"".toList = "/index.html".toList ++ ['"'] := by decide
    simp only [nestedIndexLink, matches_append, matches_literal, matches_many, opening_eq, hend]
    constructor
    · rintro ⟨_, _, rfl, ⟨_, v, rfl, rfl, hv⟩, rfl⟩
      refine ⟨v ++ "/index.html".toList, by simp, ?_, List.suffix_append ..⟩
      rw [List.mem_append, not_or]
      exact ⟨fun hmem => absurd (hv _ hmem) (by decide), by decide⟩
    · rintro ⟨_, rfl, hquote, v, rfl⟩
      refine ⟨opening ++ v, _, by simp, ⟨opening, v, rfl, rfl, fun c hc => ?_⟩, rfl⟩
      refine decide_eq_true fun hc' => hquote (List.mem_append_left _ ?_)
      rwa [← hc']
  constructor
  · intro before t
    constructor
    · rintro ⟨_, rest, rfl, h⟩
      obtain ⟨v, rfl, hv⟩ := hmatches.1 h
      exact ⟨v ++ '"' :: rest, by simp, v, rest, rfl, hv⟩
    · rintro ⟨_, rfl, v, rest, rfl, hv⟩
      exact ⟨_, rest, by simp, hmatches.2 ⟨v, rfl, hv⟩⟩
  · intro before t hit h
    obtain ⟨rest, -, haccepts⟩ := matchAt_sound h
    obtain ⟨v, htext, hv, -⟩ := hmatches.1 ⟨_, haccepts⟩
    exact ⟨v, htext, hv⟩

theorem linkRule_bare : LinkRule bareIndexLink IsBare := by
  have hpattern : bareIndexLink = literal (opening ++ ("index.html".toList ++ ['"'])) := by
    unfold bareIndexLink
    congr 1
  constructor
  · intro before t
    constructor
    · rintro ⟨_, rest, rfl, h⟩
      rw [hpattern, matches_literal] at h
      exact ⟨_, by rw [h, List.append_assoc], "index.html".toList, rest, by simp, by decide, rfl⟩
    · rintro ⟨_, rfl, v, rest, rfl, -, rfl⟩
      refine ⟨opening ++ ("index.html".toList ++ ['"']), rest, by simp, ?_⟩
      rw [hpattern, matches_literal]
  · intro before t hit h
    obtain ⟨rest, -, haccepts⟩ := matchAt_sound h
    have hmatches : bareIndexLink.Matches before hit.text rest := ⟨_, haccepts⟩
    rw [hpattern, matches_literal] at hmatches
    exact ⟨"index.html".toList, hmatches, by decide⟩

theorem LinkRule.rewritten (hrule : LinkRule p P) (page : Text) :
    Rewritten p (fun _ => homeLink) none page (p.rewrite (fun _ => homeLink) page) := by
  refine rewritten_rewrite (fun before t hit h => ?_) _ page
  obtain ⟨v, htext, -⟩ := hrule.hit _ _ _ h
  rw [htext]
  simp [opening]

/-- What a rule for links swaps: a link on one line for the link to the root. -/
def Linked (x y : Text) : Prop :=
  ∃ v, x = opening ++ (v ++ ['"']) ∧ '"' ∉ v ∧ '\n' ∉ v ∧ y = homeLink

theorem LinksClosed.linked_of_rewritten (hrule : LinkRule p P) (hlinks : LinksClosed t)
    (h : Rewritten p (fun _ => homeLink) before t new) : Edited Linked t new := by
  induction h with
  | nil => exact .nil
  | plain before c t new hhere htail ih => exact .plain c t new (ih (hlinks.suffix (a := [c])))
  | hit before h t new hne hhere htail ih =>
      refine .swap _ _ t new ?_ (ih hlinks.suffix)
      obtain ⟨v, htext, hquote⟩ := hrule.hit _ _ _ hhere
      refine ⟨v, htext, hquote, ?_, rfl⟩
      obtain ⟨w, r, hcut, hquote', hline⟩ := hlinks [] (v ++ '"' :: t) (by rw [htext]; simp)
      rwa [Text.eq_of_first hcut hquote hquote']

/-- Both links agree up to the quotation mark they open with. -/
theorem linked_first : ∀ x y, Linked x y →
    ∃ z p q, x = z ++ '"' :: p ∧ y = z ++ '"' :: q ∧ '"' ∉ z := by
  rintro _ _ ⟨v, rfl, -, -, rfl⟩
  refine ⟨"href=".toList, v ++ ['"'], ['/', '"'], by simp [opening], ?_, by decide⟩
  rw [homeLink_eq, opening]
  simp

theorem tame_linked : Tame Linked := by
  have hopening : ∃ r, opening = 'h' :: r ∧ '\n' ∉ opening := ⟨_, rfl, by decide⟩
  obtain ⟨r, hopen, hline⟩ := hopening
  refine ⟨?_, ?_, ?_, ?_, ?_⟩
  · rintro _ _ ⟨v, rfl, -⟩
    exact ⟨'h', r ++ (v ++ ['"']), by rw [hopen]; rfl, by decide⟩
  · rintro _ _ ⟨v, rfl, -⟩
    exact ⟨opening ++ v, '"', (List.append_assoc ..).symm, by decide⟩
  · rintro _ _ ⟨v, rfl, -⟩ hlast
    rw [← List.append_assoc, List.getLast?_concat] at hlast
    cases hlast
  · rintro _ _ ⟨v, rfl, -, hv, -⟩ hmem
    rcases List.mem_append.1 hmem with hmem | hmem
    · exact hline hmem
    · rcases List.mem_append.1 hmem with hmem | hmem
      · exact hv hmem
      · cases List.mem_singleton.1 hmem
  · rintro _ _ ⟨v, -, -, -, rfl⟩ hmem
    exact absurd hmem (by decide)

/-- Off the letter that links start with, the new text goes on like the old one. -/
theorem back_of_linked (hu : 'h' ∉ u) (h : Edited Linked t (u ++ s)) :
    ∃ s', t = u ++ s' ∧ Edited Linked s' s := by
  have hhome : ∃ r, homeLink = 'h' :: r := ⟨_, homeLink_eq⟩
  obtain ⟨r, hr⟩ := hhome
  have hfront : ∀ c ∈ u, c ≠ 'h' := fun c hc hne => hu (hne ▸ hc)
  obtain ⟨s', rfl, hs⟩ := h.flip.split_front (by
    rintro _ _ ⟨v, -, -, -, rfl⟩
    exact ⟨'h', r, hr, by simp⟩) hfront
  exact ⟨s', rfl, hs.flip⟩

/-- A link in the new text is one to the root, or it stood in the old text, with the same
value, and the rule did not look for it. -/
theorem opening_of_rewritten (hrule : LinkRule p P) (hlinks : LinksClosed t)
    (h : Rewritten p (fun _ => homeLink) before t new) (hnew : new = a ++ (opening ++ b')) :
    (∃ r, b' = '/' :: '"' :: r)
      ∨ ∃ a b, t = a ++ (opening ++ b) ∧ ¬ LinksTo P b ∧ Edited Linked b b' := by
  have hopen : ∃ r, opening = 'h' :: r ∧ 'h' ∉ r := ⟨_, rfl, by decide⟩
  have hhome : ∃ r, homeLink = 'h' :: r ∧ 'h' ∉ r := ⟨_, homeLink_eq, by decide⟩
  obtain ⟨r, hr, hmem⟩ := hopen
  obtain ⟨r', hr', hmem'⟩ := hhome
  induction h generalizing a with
  | nil => simp [opening] at hnew
  | plain before c t new hhere htail ih =>
      have hsuffix := hlinks.suffix (a := [c])
      cases a with
      | cons d a =>
          obtain ⟨rfl, hrest⟩ := List.cons_eq_cons.1 hnew
          rcases ih hsuffix hrest with hroot | ⟨a, b, rfl, hnot, hb⟩
          · exact .inl hroot
          · exact .inr ⟨c :: a, b, rfl, hnot, hb⟩
      | nil =>
          rw [List.nil_append, hr] at hnew
          obtain ⟨rfl, rfl⟩ := List.cons_eq_cons.1 hnew
          obtain ⟨b, rfl, hb⟩ := back_of_linked hmem (hsuffix.linked_of_rewritten hrule htail)
          have hsame : 'h' :: (r ++ b) = opening ++ b := by rw [hr]; rfl
          refine .inr ⟨[], b, hsame, fun hlinks => ?_, hb⟩
          rw [hsame] at hhere
          exact matchAt_eq_none_iff_not_startsAt.1 hhere ((hrule.startsAt _ _).2 ⟨b, rfl, hlinks⟩)
  | hit before h t new hne hhere htail ih =>
      cases a with
      | nil =>
          rw [homeLink_eq, List.append_assoc, List.nil_append] at hnew
          exact .inl ⟨new, (List.append_cancel_left hnew).symm⟩
      | cons d a =>
          rw [hr', hr] at hnew
          obtain ⟨rfl, hcut⟩ := List.cons_eq_cons.1 hnew
          have hcut : a ++ 'h' :: (r ++ b') = r' ++ new := hcut.symm
          obtain ⟨y, rfl, hy⟩ := Text.exists_append_of_notMem hcut hmem'
          rcases ih hlinks.suffix (a := y) (by rw [hy, hr]; rfl) with hroot | ⟨a, b, rfl, hnot, hb⟩
          · exact .inl hroot
          · exact .inr ⟨h.text ++ a, b, (List.append_assoc ..).symm, hnot, hb⟩

/-- No link in the new text has a value that none had in the old one, but for links to the
root. -/
theorem quiet_linked (hrule : LinkRule p P) (hlinks : LinksClosed t) (hroot : ¬ Q ['/'])
    (hold : ∀ a b, t = a ++ (opening ++ b) → ¬ LinksTo P b → ¬ LinksTo Q b)
    (h : Rewritten p (fun _ => homeLink) before t new) : Quiet opening (LinksTo Q) new := by
  rintro a v rfl ⟨b', rfl, w, r, rfl, hw, hQ⟩
  rcases opening_of_rewritten hrule hlinks h rfl with ⟨r', hr'⟩ | ⟨a, b, rfl, hnot, hb⟩
  · have hsame : w = ['/'] := Text.eq_of_first (s := w) (t := ['/']) hr' hw (by decide)
    exact hroot (hsame ▸ hQ)
  · obtain ⟨r', rfl⟩ := hb.flip.split_first (fun y x hxy => by
      obtain ⟨z, p, q, hx, hy, hz⟩ := linked_first x y hxy
      exact ⟨z, q, p, hy, hx, hz⟩) hw
    exact hold a _ rfl hnot ⟨w, r', rfl, hw, hQ⟩

/-- A rule for links keeps a page tidy. -/
theorem Tidy.linked (hrule : LinkRule p P) (h : Tidy t)
    (hnew : Rewritten p (fun _ => homeLink) before t new) : Tidy new := by
  have hedit := h.links.linked_of_rewritten hrule hnew
  constructor
  · rintro a b' rfl
    rcases opening_of_rewritten hrule h.links hnew rfl with ⟨r, rfl⟩ | ⟨a, b, rfl, -, hb⟩
    · exact ⟨['/'], r, rfl, by decide, by decide⟩
    · obtain ⟨v, r, rfl, hquote, hline⟩ := h.links a b rfl
      obtain ⟨r', rfl⟩ := hb.split_first linked_first hquote
      exact ⟨v, r', rfl, hquote, hline⟩
  · refine h.tags.edited tame_linked fun l hl a' s' htext => ?_
    -- a tag starts with a bracket, which no link has, and goes on without the letter of one
    obtain ⟨r, rfl, hr⟩ : ∃ r, l = '<' :: r ∧ 'h' ∉ r := by
      have hleads : ∀ l ∈ tagLeads, l.head? = some '<' ∧ 'h' ∉ l.tail := by decide
      obtain ⟨hhead, htail⟩ := hleads l hl
      cases l with
      | nil => cases hhead
      | cons c r =>
          obtain rfl := Option.some.inj hhead
          exact ⟨r, rfl, htail⟩
    rw [htext] at hedit
    obtain ⟨a, _, rfl, ha, hrest⟩ := hedit.flip.split_at (c := '<') (a := a') (b := r ++ s') (by
      rintro _ _ ⟨v, -, -, -, rfl⟩
      decide)
    obtain ⟨s, rfl, hs⟩ := back_of_linked hr hrest.flip
    exact ⟨a, s, rfl, ha.flip, hs⟩

-- ========================================================================== tags

/-- What a tag goes on with after its lead: anything with a bracket in it. -/
theorem matches_tokenTag {rest : Text} : tokenTag.Matches before t rest ↔ IsTag t := by
  have hlead : ∀ kind ∈ ["param", "token"], "<meta name=\"csrf-".toList ++ kind.toList ++ "\"".toList
      = "<meta".toList ++ ' ' :: ("name=".toList
        ++ '"' :: ("csrf-".toList ++ kind.toList ++ ['"'])) := by decide
  simp only [tokenTag, matches_append, matches_or, matches_literal, matches_many]
  constructor
  · rintro ⟨_, _, rfl, ⟨_, m, rfl, ⟨_, _, rfl, ⟨_, kind, rfl, rfl, hkind⟩, rfl⟩, hm⟩, rfl⟩
    obtain ⟨name, hname, rfl⟩ : ∃ name ∈ ["param", "token"], kind = name.toList := by
      rcases hkind with rfl | rfl
      · exact ⟨"param", by decide, rfl⟩
      · exact ⟨"token", by decide, rfl⟩
    refine ⟨_, List.mem_map.2 ⟨name, hname, rfl⟩, m, ?_, fun hmem => absurd (hm _ hmem) (by decide)⟩
    rw [hlead name hname, List.append_assoc]
    rfl
  · rintro ⟨_, hl, m, rfl, hm⟩
    obtain ⟨name, hname, rfl⟩ := List.mem_map.1 hl
    have hkind : name.toList = "param".toList ∨ name.toList = "token".toList := by
      rcases List.mem_cons.1 hname with rfl | hname
      · exact .inl rfl
      · obtain rfl := List.mem_singleton.1 hname
        exact .inr rfl
    refine ⟨_, ['>'], ?_, ⟨_, m, rfl, ⟨_, _, rfl, ⟨_, name.toList, rfl, rfl, hkind⟩, rfl⟩, ?_⟩, rfl⟩
    · rw [hlead name hname]
      simp
    · refine fun c hc => decide_eq_true fun hc' => hm ?_
      rwa [← hc']

theorem startsAt_tokenTag :
    tokenTag.StartsAt before t ↔ ∃ l ∈ tagLeads, Leads l ('>' ∈ ·) t := by
  constructor
  · rintro ⟨_, rest, rfl, h⟩
    obtain ⟨l, hl, m, rfl, -⟩ := matches_tokenTag.1 h
    exact ⟨l, hl, m ++ '>' :: rest, by simp, by simp⟩
  · rintro ⟨l, hl, s, rfl, hs⟩
    obtain ⟨m, rest, rfl, hm⟩ := List.eq_append_cons_of_mem hs
    exact ⟨l ++ (m ++ ['>']), rest, by simp, matches_tokenTag.2 ⟨l, hl, m, rfl, hm⟩⟩

theorem isTag_of_matchAt {hit : Hit} (h : tokenTag.matchAt ⟨before, t⟩ = some hit) :
    IsTag hit.text := by
  obtain ⟨rest, -, haccepts⟩ := matchAt_sound h
  exact matches_tokenTag.1 ⟨_, haccepts⟩

theorem IsTag.exists_cons {tag : Text} (h : IsTag tag) : ∃ r, tag = '<' :: r := by
  have hleads : ∀ l ∈ tagLeads, l.head? = some '<' := by decide
  obtain ⟨l, hl, m, rfl, -⟩ := h
  have hhead := hleads l hl
  cases l with
  | nil => cases hhead
  | cons c l =>
      obtain rfl := Option.some.inj hhead
      exact ⟨l ++ (m ++ ['>']), rfl⟩

theorem IsTag.getLast? {tag : Text} (h : IsTag tag) : tag.getLast? = some '>' := by
  obtain ⟨l, -, m, rfl, -⟩ := h
  rw [← List.append_assoc, List.getLast?_concat]

/-- The page without its tags. -/
abbrev Deleted : Option Char → Text → Text → Prop := Rewritten tokenTag fun _ => []

theorem deleted_delete (page : Text) : Deleted none page (tokenTag.delete page) := by
  refine rewritten_rewrite (fun before t hit h => ?_) _ page
  obtain ⟨r, htext⟩ := (isTag_of_matchAt h).exists_cons
  rw [htext]
  simp

theorem mem_of_deleted {c : Char} (h : Deleted before t new) (hc : c ∈ new) : c ∈ t := by
  induction h with
  | nil => exact hc
  | plain before d t new hhere htail ih =>
      rcases List.mem_cons.1 hc with rfl | hc
      · exact List.mem_cons_self ..
      · exact List.mem_cons_of_mem _ (ih hc)
  | hit before h t new hne hhere htail ih => exact List.mem_append_right _ (ih hc)

/-- On a line that is not blank so far no tag is dropped. -/
theorem step_of_deleted (htags : TagsAlone (a ++ t)) (hbusy : ¬ EndsBlankLine a)
    (h : Deleted before t new) : t = [] ∧ new = []
      ∨ ∃ c t' new', t = c :: t' ∧ new = c :: new' ∧ Deleted (some c) t' new' := by
  cases h with
  | nil => exact .inl ⟨rfl, rfl⟩
  | plain before c t new hhere htail => exact .inr ⟨c, t, new, rfl, rfl, htail⟩
  | hit before h t new hne hhere htail =>
      exact absurd (htags a h.text t rfl (isTag_of_matchAt hhere)).1 hbusy

/-- Up to the end of such a line the new text goes on like the old one. -/
theorem forward_of_deleted (hline : '\n' ∉ u) (htags : TagsAlone (a ++ (u ++ s)))
    (hbusy : ¬ EndsBlankLine a) (h : Deleted before (u ++ s) new) :
    ∃ before' s', new = u ++ s' ∧ Deleted before' s s' := by
  induction u generalizing a before new with
  | nil => exact ⟨before, new, rfl, h⟩
  | cons c u ih =>
      rcases step_of_deleted htags hbusy h with ⟨hnil, -⟩ | ⟨d, t', new', ht, rfl, htail⟩
      · cases hnil
      · obtain ⟨rfl, rfl⟩ := List.cons_eq_cons.1 ht
        obtain ⟨hc, hline⟩ := not_or.1 (mt List.mem_cons.2 hline)
        obtain ⟨before', s', rfl, hs⟩ := ih (a := a ++ [c]) hline (by simpa using htags)
          (not_endsBlankLine_concat (Ne.symm hc) (.inr hbusy)) htail
        exact ⟨before', s', rfl, hs⟩

/-- And the old text goes on like the new one. -/
theorem back_of_deleted (hline : '\n' ∉ u) (htags : TagsAlone (a ++ t))
    (hbusy : ¬ EndsBlankLine a) (h : Deleted before t (u ++ s)) :
    ∃ before' s', t = u ++ s' ∧ Deleted before' s' s := by
  induction u generalizing a before t with
  | nil => exact ⟨before, t, rfl, h⟩
  | cons c u ih =>
      rcases step_of_deleted htags hbusy h with ⟨-, hnil⟩ | ⟨d, t', new', rfl, hnew, htail⟩
      · cases hnil
      · obtain ⟨rfl, rfl⟩ := List.cons_eq_cons.1 hnew
        obtain ⟨hc, hline⟩ := not_or.1 (mt List.mem_cons.2 hline)
        obtain ⟨before', s', rfl, hs⟩ := ih (a := a ++ [c]) hline (by simpa using htags)
          (not_endsBlankLine_concat (Ne.symm hc) (.inr hbusy)) htail
        exact ⟨before', s', rfl, hs⟩

/-- Links have the values they had. -/
theorem quiet_links_of_deleted (hlinks : LinksClosed (a ++ t)) (htags : TagsAlone (a ++ t))
    (hquiet : Quiet opening (LinksTo P) t) (h : Deleted before t new) :
    Quiet opening (LinksTo P) new := by
  have hopen : ∃ r, opening = 'h' :: r ∧ '\n' ∉ r := ⟨_, rfl, by decide⟩
  obtain ⟨r, hr, hline⟩ := hopen
  induction h generalizing a with
  | nil => exact hquiet
  | plain before c t new hhere htail ih =>
      have hrest := ih (a := a ++ [c]) (by simpa using hlinks) (by simpa using htags)
        (fun u v htext => hquiet (c :: u) v (by rw [htext]; rfl))
      rw [hr] at hquiet hrest ⊢
      refine quiet_cons.2 ⟨?_, hrest⟩
      rintro ⟨s, hnew, v, rest, rfl, hv, hP⟩
      obtain ⟨rfl, rfl⟩ := List.cons_eq_cons.1 hnew
      have htags' : TagsAlone ((a ++ ['h']) ++ t) := by simpa using htags
      have hbusy : ¬ EndsBlankLine (a ++ ['h']) :=
        not_endsBlankLine_concat (by decide) (.inl (by decide))
      obtain ⟨before', s, rfl, hs⟩ := back_of_deleted hline htags' hbusy htail
      -- in the old text the value is closed on its line, so it is the same
      obtain ⟨w, rest', rfl, hw, hwline⟩ := hlinks a s (by rw [hr]; rfl)
      have hsplit : r ++ (w ++ '"' :: rest') = (r ++ (w ++ ['"'])) ++ rest' := by simp
      rw [hsplit] at htail htags'
      obtain ⟨-, s', hsame, -⟩ := forward_of_deleted (by simp [hline, hwline]) htags' hbusy htail
      have hcut : v ++ '"' :: rest = w ++ '"' :: s' := by
        have hthere : r ++ (v ++ '"' :: rest) = r ++ (w ++ '"' :: s') := hsame.trans (by simp)
        exact List.append_cancel_left hthere
      obtain rfl := Text.eq_of_first hcut hv hw
      exact hquiet [] _ rfl ⟨v ++ '"' :: rest', rfl, v, rest', rfl, hv, hP⟩
  | hit before h t new hne hhere htail ih =>
      refine ih (a := a ++ h.text) (by simpa using hlinks) (by simpa using htags) ?_
      exact fun u v htext => hquiet (h.text ++ u) v (by rw [htext]; simp)

/-- No tag is left, and none comes up. -/
theorem quiet_tags_of_deleted {l : Text} (hl : l ∈ tagLeads) (htags : TagsAlone (a ++ t))
    (h : Deleted before t new) : Quiet l ('>' ∈ ·) new := by
  have hleads : ∀ l ∈ tagLeads, l.head? = some '<' ∧ '\n' ∉ l.tail := by decide
  obtain ⟨hhead, hline⟩ := hleads l hl
  obtain ⟨r, rfl⟩ : ∃ r, l = '<' :: r := List.head?_eq_some_iff.1 hhead
  induction h generalizing a with
  | nil => exact quiet_nil
  | plain before c t new hhere htail ih =>
      refine quiet_cons.2 ⟨?_, ih (a := a ++ [c]) (by simpa using htags)⟩
      rintro ⟨s, hnew, hs⟩
      obtain ⟨rfl, rfl⟩ := List.cons_eq_cons.1 hnew
      obtain ⟨before', s', rfl, hrest⟩ := back_of_deleted (a := a ++ ['<']) hline
        (by simpa using htags) (not_endsBlankLine_concat (by decide) (.inl (by decide))) htail
      exact matchAt_eq_none_iff_not_startsAt.1 hhere
        (startsAt_tokenTag.2 ⟨_, hl, s', rfl, mem_of_deleted hrest hs⟩)
  | hit before h t new hne hhere htail ih => exact ih (a := a ++ h.text) (by simpa using htags)

/-- A page without tags is left alone. -/
theorem delete_of_quiet (h : ∀ l ∈ tagLeads, Quiet l ('>' ∈ ·) t) : tokenTag.delete t = t := by
  refine rewrite_of_clear fun u v htext hne => ?_
  rw [List.append_nil, matchAt_eq_none_iff_not_startsAt, startsAt_tokenTag]
  rintro ⟨l, hl, hleads⟩
  exact h l hl u v htext hleads

/-- Cleaning a tidy page twice is cleaning it once. -/
theorem clean_clean (h : Tidy page) : clean (clean page) = clean page := by
  unfold clean
  dsimp only
  have one := linkRule_nested.rewritten page
  have tidyOne := h.linked linkRule_nested one
  have nestedOne := quiet_linked linkRule_nested h.links not_isNested_root
    (fun _ _ _ hnot => hnot) one
  generalize nestedIndexLink.rewrite (fun _ => homeLink) page = first at one tidyOne nestedOne ⊢
  have two := linkRule_bare.rewritten first
  have tidyTwo := tidyOne.linked linkRule_bare two
  have nestedTwo := quiet_linked linkRule_bare tidyOne.links not_isNested_root
    (fun a b htext _ hlinks => nestedOne a _ htext ⟨b, rfl, hlinks⟩) two
  have bareTwo := quiet_linked linkRule_bare tidyOne.links not_isBare_root
    (fun _ _ _ hnot => hnot) two
  generalize bareIndexLink.rewrite (fun _ => homeLink) first = second at two tidyTwo nestedTwo bareTwo ⊢
  have three := deleted_delete second
  have nestedThree := quiet_links_of_deleted (a := []) tidyTwo.links tidyTwo.tags nestedTwo three
  have bareThree := quiet_links_of_deleted (a := []) tidyTwo.links tidyTwo.tags bareTwo three
  have tagsThree := fun l hl => quiet_tags_of_deleted (l := l) hl (a := []) tidyTwo.tags three
  generalize tokenTag.delete second = third at three nestedThree bareThree tagsThree ⊢
  rw [rewrite_of_quiet linkRule_nested.startsAt nestedThree,
    rewrite_of_quiet linkRule_bare.startsAt bareThree, delete_of_quiet tagsThree]

-- ==================================================================== references

/-- A lead that is read between characters of no path, with what goes on after it. -/
structure Local (lead : Text) (goesOn : Text → Prop) : Prop where
  inside : ∀ c ∈ lead, inPath c
  letter : 't' ∈ lead
  goesOn_iff : ∀ s c b, inPath c = false → (goesOn (s ++ c :: b) ↔ goesOn s)

namespace Local

variable {c : Char}

/-- A text falls apart there into two that are searched on their own. -/
theorem quiet_append (h : Local lead goesOn) (hc : inPath c = false) :
    Quiet lead goesOn (a ++ c :: b) ↔ Quiet lead goesOn a ∧ Quiet lead goesOn b := by
  constructor
  · intro hquiet
    constructor
    · rintro u v rfl ⟨s, rfl, hs⟩
      exact hquiet u (lead ++ s ++ c :: b) (by simp)
        ⟨s ++ c :: b, List.append_assoc .., (h.goesOn_iff s c b hc).2 hs⟩
    · rintro u v rfl
      exact hquiet (a ++ c :: u) v (by simp)
  · rintro ⟨ha, hb⟩ u v htext ⟨s, rfl, hs⟩
    have hnot : c ∉ lead := fun hmem => by simp [h.inside c hmem] at hc
    rcases List.append_eq_append_iff.1 htext with ⟨z, rfl, hz⟩ | ⟨z, rfl, hz⟩
    · cases z with
      | nil =>
          cases lead with
          | nil => cases h.letter
          | cons d lead =>
              obtain ⟨rfl, -⟩ := List.cons_eq_cons.1 hz
              simp at hnot
      | cons d z =>
          obtain ⟨-, rfl⟩ := List.cons_eq_cons.1 hz
          exact hb z _ rfl ⟨s, rfl, hs⟩
    · obtain ⟨y, rfl, rfl⟩ := Text.exists_append_of_notMem hz.symm hnot
      exact ha u _ rfl ⟨y, rfl, (h.goesOn_iff y c b hc).1 hs⟩

/-- Links between quotation marks come and go without a trace. -/
theorem quiet_linked (h : Local lead goesOn) (hnew : Edited Linked t new) {u : Text}
    (hquiet : Quiet lead goesOn (u ++ t)) : Quiet lead goesOn (u ++ new) := by
  induction hnew generalizing u with
  | nil => exact hquiet
  | plain c t new htail ih =>
      have hrest := ih (u := u ++ [c]) (by simpa using hquiet)
      simpa using hrest
  | swap x y t new hswap htail ih =>
      obtain ⟨v, rfl, -, -, rfl⟩ := hswap
      have hold : u ++ (opening ++ (v ++ ['"']) ++ t) = (u ++ "href=".toList) ++ '"' :: (v ++ '"' :: t) := by
        simp [opening]
      have hshape : u ++ (homeLink ++ new)
          = (u ++ "href=".toList) ++ '"' :: (['/'] ++ '"' :: new) := by
        rw [homeLink_eq]
        simp [opening]
      rw [hold, h.quiet_append (by decide), h.quiet_append (by decide)] at hquiet
      rw [hshape, h.quiet_append (by decide), h.quiet_append (by decide)]
      exact ⟨hquiet.1, quiet_of_notMem h.letter (by decide), ih (u := []) hquiet.2.2⟩

/-- So do tags between blanks. -/
theorem quiet_deleted (h : Local lead goesOn) (htags : TagsAlone (a ++ t))
    (hnew : Deleted before t new) {u : Text} (hstart : a = [] → u = [])
    (hlast : ∀ s c, a = s ++ [c] → isBlank c → ∃ s', u = s' ++ [c])
    (hquiet : Quiet lead goesOn (u ++ t)) : Quiet lead goesOn (u ++ new) := by
  have hblank : ∀ {c}, isBlank c → inPath c = false := by
    intro c hc
    simp [inPath, hc]
  induction hnew generalizing a u with
  | nil => exact hquiet
  | plain before c t new hhere htail ih =>
      have hrest := ih (a := a ++ [c]) (u := u ++ [c]) (by simpa using htags) (by simp)
        (fun s d hs _ => ⟨u, by rw [(List.append_inj' hs rfl).2]⟩) (by simpa using hquiet)
      simpa using hrest
  | hit before h' t new hne hhere htail ih =>
      have htag := isTag_of_matchAt hhere
      obtain ⟨hends, hstarts⟩ := htags a h'.text t rfl htag
      refine ih (a := a ++ h'.text) (by simpa using htags) ?_ ?_ ?_
      · intro hnil
        exact absurd (List.append_eq_nil_iff.1 hnil).2 hne
      · intro s c hs hc
        have hbracket := congrArg List.getLast? hs
        rw [List.getLast?_append, htag.getLast?, List.getLast?_concat] at hbracket
        obtain rfl := Option.some.inj hbracket
        exact absurd hc (by decide)
      · -- the tag stands between the end of `u`, which is a blank, and the next blank
        have hafter : Quiet lead goesOn (h'.text ++ t) → Quiet lead goesOn t := by
          cases t with
          | nil => exact fun _ => quiet_of_notMem h.letter (by simp)
          | cons c t =>
              intro hall
              have hc := hblank (hstarts.head c rfl)
              have hsplit := (h.quiet_append hc).1 hall
              exact (h.quiet_append (a := []) hc).2
                ⟨quiet_of_notMem h.letter (by simp), hsplit.2⟩
        rcases hends.last with rfl | ⟨s, c, rfl, hc⟩
        · rw [hstart rfl] at hquiet ⊢
          exact hafter hquiet
        · obtain ⟨s', rfl⟩ := hlast s c rfl hc
          rw [List.append_assoc, List.singleton_append, h.quiet_append (hblank hc)] at hquiet ⊢
          exact ⟨hquiet.1, hafter hquiet.2⟩

/-- Cleaning brings up no reference. -/
theorem quiet_clean (h : Local lead goesOn) (htidy : Tidy page) (hquiet : Quiet lead goesOn page) :
    Quiet lead goesOn (clean page) := by
  unfold clean
  dsimp only
  have one := linkRule_nested.rewritten page
  have tidyOne := htidy.linked linkRule_nested one
  have quietOne := h.quiet_linked (htidy.links.linked_of_rewritten linkRule_nested one) (u := []) hquiet
  generalize nestedIndexLink.rewrite (fun _ => homeLink) page = first at one tidyOne quietOne ⊢
  have two := linkRule_bare.rewritten first
  have tidyTwo := tidyOne.linked linkRule_bare two
  have quietTwo := h.quiet_linked (tidyOne.links.linked_of_rewritten linkRule_bare two) (u := []) quietOne
  generalize bareIndexLink.rewrite (fun _ => homeLink) first = second at two tidyTwo quietTwo ⊢
  exact h.quiet_deleted (a := []) (u := []) tidyTwo.tags (deleted_delete second) (fun _ => rfl)
    (by simp) quietTwo

end Local

theorem segment_append_cons {c : Char} (hc : inPath c = false) :
    segment (s ++ c :: b) = segment s := by
  have hname : inName c = false := by
    cases h : inName c with
    | false => rfl
    | true => simp [inPath_of_inName h] at hc
  induction s with
  | nil => simp [hname, segment]
  | cons d s ih => rw [List.cons_append, segment_cons, segment_cons, ih]

theorem namesScriptLater_append_cons {c : Char} (hc : inPath c = false) :
    NamesScriptLater (s ++ c :: b) ↔ NamesScriptLater s := by
  have hslash : c ≠ '/' := by
    rintro rfl
    exact absurd hc (by decide)
  have hnil : ¬ NamesScriptLater [] := by
    rintro ⟨a, s, htext, -⟩
    simp at htext
  induction s with
  | nil => simp [namesScriptLater_cons, hslash, hc, hnil]
  | cons d s ih =>
      simp only [List.cons_append, namesScriptLater_cons, ih, segment_append_cons hc]

theorem namesScript_append_cons {c : Char} (hc : inPath c = false) :
    NamesScript (s ++ c :: b) ↔ NamesScript s := by
  unfold NamesScript
  rw [segment_append_cons hc]
  refine or_congr_right ⟨?_, ?_⟩
  · rintro ⟨d, t, htext, hd, hlater⟩
    cases s with
    | nil =>
        obtain ⟨rfl, -⟩ := List.cons_eq_cons.1 htext
        simp [hc] at hd
    | cons e s =>
        obtain ⟨rfl, rfl⟩ := List.cons_eq_cons.1 htext
        exact ⟨e, s, rfl, hd, (namesScriptLater_append_cons hc).1 hlater⟩
  · rintro ⟨d, t, rfl, hd, hlater⟩
    exact ⟨d, t ++ c :: b, rfl, hd, (namesScriptLater_append_cons hc).2 hlater⟩

theorem local_assets (xs : List Text) : Local "assets/" fun s => NamesFile xs (segment s) where
  inside := by decide
  letter := by decide
  goesOn_iff s c b hc := by rw [segment_append_cons hc]

theorem local_modules : Local "assets/controllers/" NamesScript where
  inside := by decide
  letter := by decide
  goesOn_iff _ _ _ hc := namesScript_append_cons hc

theorem local_server (port : Nat) (xs : List Text) :
    Local ("http://localhost:" ++ Text.ofNat port ++ ['/']) fun s => NamesFile xs (segment s) where
  inside := by
    have hscheme : ∀ c ∈ "http://localhost:".toList, inPath c := by decide
    intro c hc
    rcases List.mem_append.1 hc with hc | hc
    · rcases List.mem_append.1 hc with hc | hc
      · exact hscheme c hc
      · exact inPath_of_isDigit (Relocated.isDigit_of_mem_ofNat hc)
    · obtain rfl := List.mem_singleton.1 hc
      decide
  letter := by simp
  goesOn_iff s c b hc := by rw [segment_append_cons hc]

/-- On a tidy page cleaning leaves nothing for relocation to do. -/
theorem settled_clean {port : Nat} (htidy : Tidy page) (h : Settled port page) :
    Settled port (clean page) where
  modules := local_modules.quiet_clean htidy h.modules
  scripts := (local_assets _).quiet_clean htidy h.scripts
  stylesheets := (local_assets _).quiet_clean htidy h.stylesheets
  images := (local_assets _).quiet_clean htidy h.images
  fonts := (local_assets _).quiet_clean htidy h.fonts
  onServer := (local_server port _).quiet_clean htidy h.onServer

/-- What comes of a tidy page when references are led and it is cleaned is left alone by a
second pass of both. -/
theorem finished_of_tidy (port : Nat) (h : Tidy page) :
    rewrite port (clean (rewrite port page)) = clean (rewrite port page)
      ∧ clean (clean (rewrite port page)) = clean (rewrite port page) :=
  ⟨rewrite_of_settled (settled_clean (tidy_rewrite port h) (settled_rewrite port page)),
    clean_clean (tidy_rewrite port h)⟩

end SiteScaffold.Export.Html

/-
Where the shell of the application layout goes. The layout that it is put into has two anchors,
the first start tag of the body and the first yield tag behind it (`Anchored`). The header and
the main element open right behind the first anchor; what is inserted there ends with a tag and
has no yield tag in it, so the second anchor is still the first one of its kind when the main
element is closed behind it (`Anchored.shelled_eq`).

Tags do not reach over the end of another tag, so what the new layout has of them is counted
part by part: in the parts that were there and in those that were inserted.
-/
import SiteScaffold.Patch.Shell
import SiteScaffold.Proofs.Pattern.Pieces
import SiteScaffold.Proofs.Text.Occurrences

namespace SiteScaffold.Patch.Shell

open Pattern
open Text (occurrences occurrences_append occurrences_eq_zero_iff)

variable {bare before behind body layout mid rest start t tag : Text} {place : Option Char}

-- ======================================================================= start tags

/-- A start tag of the body. -/
def IsBodyTag (tag : Text) : Prop := ∃ inside, tag = "<body".toList ++ (inside ++ ['>']) ∧ '>' ∉ inside

theorem matches_bodyStart : bodyStart.Matches place t rest ↔ IsBodyTag t := matches_tag

/-- Two start tags at one place are one. -/
theorem IsBodyTag.unique {tag tag' rest' : Text} (h : IsBodyTag tag) (h' : IsBodyTag tag')
    (heq : tag ++ rest = tag' ++ rest') : tag = tag' := by
  obtain ⟨inside, rfl, hinside⟩ := h
  obtain ⟨inside', rfl, hinside'⟩ := h'
  simp only [List.append_assoc] at heq
  have hcut := List.append_cancel_left heq
  rw [Text.eq_of_first hcut hinside hinside']

/-- A start tag of the body is found if no other one starts in front of it. -/
theorem first?_bodyStart {front tag : Text} (htag : IsBodyTag tag) (hfront : ¬ "<body".toList <:+: front) :
    ∃ hit, bodyStart.first? (front ++ (tag ++ rest)) = some (front, hit, rest) ∧ hit.text = tag := by
  obtain ⟨hit, hmatch⟩ := matchAt_complete
    (matches_bodyStart.2 htag : bodyStart.Matches (lastAfter none front) tag rest)
  obtain ⟨rest', htext, haccepts⟩ := matchAt_sound hmatch
  have hsame := (matches_bodyStart.1 ⟨_, haccepts⟩).unique htag htext.symm
  refine ⟨hit, first?_of_clear ?_ hmatch hsame ?_, hsame⟩
  · -- an earlier one would start with the letters of the tag, all of them in front of it
    intro u v hsplit hne
    refine matchAt_eq_none_iff_not_startsAt.2 ?_
    rintro ⟨tag', rest', htext', hmatches⟩
    obtain ⟨inside', rfl, -⟩ := matches_bodyStart.1 hmatches
    obtain ⟨inside, rfl, -⟩ := htag
    obtain ⟨c, v, rfl⟩ := List.exists_cons_of_ne_nil hne
    obtain ⟨rfl, hcut⟩ : c = '<' ∧ v ++ '<' :: ("body".toList ++ (inside ++ ['>']) ++ rest)
        = "body".toList ++ (inside' ++ ['>'] ++ rest') := by
      simpa using htext'
    obtain ⟨y, rfl, -⟩ := Text.exists_append_of_notMem hcut (by decide)
    exact hfront ⟨u, y, by rw [hsplit]; simp⟩
  · obtain ⟨inside, rfl, -⟩ := htag
    simp

-- ========================================================================== anchors

/-- A layout with the anchors of the shell: its first start tag of the body ends where `start`
does, and its first yield tag comes later. -/
structure Anchored (bare start mid rest : Text) : Prop where
  text : bare = start ++ (mid ++ (yieldTag ++ rest))
  body : ∃ front tag, start = front ++ tag ∧ IsBodyTag tag ∧ ¬ "<body".toList <:+: front
  first : ¬ yieldTag <:+: start ++ mid

/-- What is put behind the start tag of the body. -/
def opened : Text := "\n    " ++ headerTag ++ "\n    " ++ mainOpen

/-- What is put behind the yield tag. -/
def closed : Text := "\n    " ++ mainClose ++ "\n    " ++ footerTag

theorem opened_eq : opened = "\n    ".toList ++ headerTag ++ "\n    ".toList ++ mainOpen := rfl

theorem closed_eq : closed = "\n    ".toList ++ mainClose ++ "\n    ".toList ++ footerTag := rfl

/-- The layout with the shell at its anchors. -/
def placed (start mid rest : Text) : Text := start ++ (opened ++ (mid ++ (yieldTag ++ (closed ++ rest))))

theorem getLast?_opened : opened.getLast? = some '>' := by decide +kernel

theorem getLast?_closed : closed.getLast? = some '>' := by decide +kernel

theorem getLast?_concat_yieldTag : (mid ++ yieldTag).getLast? = some '>' := by
  rw [List.getLast?_append]
  rfl

theorem Anchored.getLast? (h : Anchored bare start mid rest) : start.getLast? = some '>' := by
  obtain ⟨front, tag, rfl, ⟨inside, rfl, -⟩, -⟩ := h.body
  rw [← List.append_assoc, ← List.append_assoc, List.getLast?_concat]

section Counting

variable {needle : Text}

/-- A tag stands in the bare layout as often as in its parts. -/
theorem Anchored.occurrences_bare (h : Anchored bare start mid rest) (hne : needle ≠ [])
    (hneedle : '>' ∉ needle.dropLast) : occurrences needle bare
      = occurrences needle start + (occurrences needle (mid ++ yieldTag) + occurrences needle rest) := by
  rw [h.text, occurrences_append hne hneedle h.getLast?, ← List.append_assoc mid,
    occurrences_append hne hneedle getLast?_concat_yieldTag]

/-- The shell brings what it has of a tag. -/
theorem Anchored.occurrences_placed (h : Anchored bare start mid rest) (hne : needle ≠ [])
    (hneedle : '>' ∉ needle.dropLast) : occurrences needle (placed start mid rest)
      = occurrences needle bare + (occurrences needle opened + occurrences needle closed) := by
  rw [h.occurrences_bare hne hneedle, placed, occurrences_append hne hneedle h.getLast?,
    occurrences_append hne hneedle getLast?_opened, ← List.append_assoc mid,
    occurrences_append hne hneedle getLast?_concat_yieldTag,
    occurrences_append hne hneedle getLast?_closed]
  omega

end Counting

/-- No yield tag comes before the one that was the first. -/
theorem Anchored.first_placed (h : Anchored bare start mid rest) : ¬ yieldTag <:+: start ++ (opened ++ mid) := by
  have hne : yieldTag ≠ [] := by decide
  have hneedle : '>' ∉ yieldTag.dropLast := by decide
  have hfirst := occurrences_eq_zero_iff.2 h.first
  have hopened : occurrences yieldTag opened = 0 := by decide +kernel
  rw [occurrences_append hne hneedle h.getLast?] at hfirst
  rw [← occurrences_eq_zero_iff, occurrences_append hne hneedle h.getLast?,
    occurrences_append hne hneedle getLast?_opened]
  omega

-- ============================================================================ edits

theorem exists_yieldTag : ∃ tail, yieldTag = '<' :: tail ∧ '<' ∉ tail := ⟨_, rfl, by decide⟩

/-- A layout without a main element, with the shell put in. -/
def shelled (bare : Text) : Text :=
  Text.replaceFirst yieldTag (yieldTag ++ "\n    " ++ mainClose ++ "\n    " ++ footerTag)
    (bodyStart.rewriteFirst (fun hit => hit.text ++ "\n    " ++ headerTag ++ "\n    " ++ mainOpen) bare)

/-- The shell goes to the anchors. -/
theorem Anchored.shelled_eq (h : Anchored bare start mid rest) : shelled bare = placed start mid rest := by
  obtain ⟨tail, htail, hnot⟩ := exists_yieldTag
  have hopen : bodyStart.rewriteFirst
      (fun hit => hit.text ++ "\n    " ++ headerTag ++ "\n    " ++ mainOpen) bare
      = (start ++ (opened ++ mid)) ++ (yieldTag ++ rest) := by
    obtain ⟨front, tag, rfl, htag, hfront⟩ := h.body
    rw [h.text, List.append_assoc]
    obtain ⟨hit, hfirst, rfl⟩ : ∃ hit, bodyStart.first? (front ++ (tag ++ (mid ++ (yieldTag ++ rest))))
        = some (front, hit, mid ++ (yieldTag ++ rest)) ∧ hit.text = tag := first?_bodyStart htag hfront
    rw [rewriteFirst_of_first? hfirst]
    simp only [opened_eq, List.append_assoc]
  have hclose : Text.cut? yieldTag ((start ++ (opened ++ mid)) ++ (yieldTag ++ rest))
      = some (start ++ (opened ++ mid), rest) := by
    have hfirst := h.first_placed
    rw [htail] at hfirst ⊢
    exact Text.cut?_of_occurrences hnot hfirst
  rw [shelled, hopen, Text.replaceFirst_of_cut? hclose]
  simp only [placed, closed_eq, List.append_assoc]

/-- What comes of a layout that the shell is put into. -/
theorem insert_eq_some {u : Text} (h : insert layout = .ok (some u)) :
    u = shelled (withoutMain (withCharset layout)) := by
  unfold insert at h
  split at h
  · cases h
  · split at h
    · cases h
    · split at h
      · cases h
      · exact (Option.some.inj (Except.ok.inj h)).symm

/-- The shell is put into a layout with both anchors and without the header. -/
theorem insert_of_anchors (hheader : Text.contains layout headerTag = false) (hbody : bodyStart.occursIn layout)
    (hyield : Text.contains layout yieldTag) :
    insert layout = .ok (some (shelled (withoutMain (withCharset layout)))) := by
  rw [insert, if_neg (by simp [hheader]), if_neg (by simp [hbody]), if_neg (by simp [hyield])]
  rfl

/-- A layout without a start tag of the body has none anywhere. -/
theorem not_isBodyTag_of_occursIn (h : bodyStart.occursIn layout = false) {front tag back : Text}
    (htext : layout = front ++ (tag ++ back)) : ¬ IsBodyTag tag := by
  intro htag
  have hclear := occursIn_eq_false_iff.1 h front (tag ++ back) htext (by
    obtain ⟨inside, rfl, -⟩ := htag
    simp)
  rw [matchAt_eq_none_iff_not_startsAt] at hclear
  exact hclear ⟨tag, back ++ [], by simp, matches_bodyStart.2 htag⟩

/-- What is refused lacks an anchor, and the refusal says which. -/
theorem insert_eq_error {refusal : Refusal} (h : insert layout = .error refusal) :
    refusal = .noAnchor "'<body>'"
        ∧ (∀ front tag back, layout = front ++ (tag ++ back) → ¬ IsBodyTag tag)
      ∨ refusal = .noAnchor "'<%= yield %>'" ∧ ¬ yieldTag <:+: layout := by
  unfold insert at h
  split at h
  · cases h
  · split at h
    next hbody =>
      cases h
      rw [Bool.not_eq_true'] at hbody
      exact .inl ⟨rfl, fun _ _ _ => not_isBodyTag_of_occursIn hbody⟩
    next =>
      split at h
      next hyield =>
        cases h
        rw [Bool.not_eq_true', ← Bool.not_eq_true, Text.contains_iff] at hyield
        exact .inr ⟨rfl, hyield⟩
      next => cases h

/-- A layout with the header in it is left alone. -/
theorem insert_of_header (h : headerTag <:+: layout) : insert layout = .ok none := by
  rw [insert, if_pos (Text.contains_iff.2 h)]

-- ==================================================================== in either order

/-- Whether a text stands behind the first start tag of the body. -/
def BehindBody (bare behind : Text) : Prop :=
  ∃ front tag, bare = front ++ (tag ++ behind) ∧ IsBodyTag tag ∧ ¬ "<body".toList <:+: front

/-- Whether a text stands behind the first yield tag. -/
def BehindYield (bare behind : Text) : Prop :=
  ∃ front, bare = front ++ (yieldTag ++ behind) ∧ ¬ yieldTag <:+: front

theorem IsBodyTag.exists_concat (h : IsBodyTag tag) : ∃ r, tag = r ++ ['>'] := by
  obtain ⟨inside, rfl, -⟩ := h
  exact ⟨"<body".toList ++ inside, by simp⟩

/-- Where the yield tag comes first, the header goes in behind what follows it. -/
theorem shelled_of_yield_first {front front' q : Text} (hbare : bare = front ++ (tag ++ body)) (htag : IsBodyTag tag)
    (hfirst : ¬ "<body".toList <:+: front) (hfirst' : ¬ yieldTag <:+: front')
    (hcut : front ++ tag = (front' ++ yieldTag) ++ q) :
    shelled bare = (front' ++ yieldTag) ++ (closed ++ (q ++ (opened ++ body))) := by
  obtain ⟨tail, htail, hnot⟩ := exists_yieldTag
  obtain ⟨hit, hmatch, rfl⟩ : ∃ hit, bodyStart.first? (front ++ (tag ++ body)) = some (front, hit, body)
      ∧ hit.text = tag := first?_bodyStart htag hfirst
  have hopen : bodyStart.rewriteFirst
      (fun hit => hit.text ++ "\n    " ++ headerTag ++ "\n    " ++ mainOpen) bare
      = front' ++ (yieldTag ++ (q ++ (opened ++ body))) := by
    rw [hbare, rewriteFirst_of_first? hmatch]
    have htext : front ++ (hit.text ++ (opened ++ body)) = front' ++ (yieldTag ++ (q ++ (opened ++ body))) := by
      rw [← List.append_assoc, hcut]
      simp
    rw [← htext]
    simp only [opened_eq, List.append_assoc]
  have hclose : Text.cut? yieldTag (front' ++ (yieldTag ++ (q ++ (opened ++ body))))
      = some (front', q ++ (opened ++ body)) := by
    rw [htail] at hfirst' ⊢
    exact Text.cut?_of_occurrences hnot hfirst'
  rw [shelled, hopen, Text.replaceFirst_of_cut? hclose]
  simp only [closed_eq, List.append_assoc]

/-- The yield tag has no end of a tag in it, so what of it comes behind the body tag is all of it. -/
theorem IsBodyTag.exists_behind {front front' q : Text} (h : IsBodyTag tag) (hnil : q ≠ [])
    (hcut : front' ++ yieldTag = (front ++ tag) ++ q) : ∃ mid, q = mid ++ yieldTag := by
  rcases List.append_eq_append_iff.1 hcut with ⟨z, hz, hin⟩ | ⟨z, hz, rfl⟩
  · obtain ⟨r, rfl⟩ := h.exists_concat
    rcases List.eq_nil_or_concat' z with rfl | ⟨w, c, rfl⟩
    · exact ⟨[], by simpa using hin.symm⟩
    · rw [← List.append_assoc, ← List.append_assoc] at hz
      obtain rfl : '>' = c := by simpa using (List.append_inj' hz rfl).2
      have hend : yieldTag = "<%= yield %".toList ++ ['>'] := rfl
      rw [hend, List.append_assoc, List.singleton_append] at hin
      obtain ⟨y, -, hy⟩ := Text.exists_append_of_notMem hin.symm (by decide)
      have hlength := congrArg List.length hy
      rw [List.length_append, List.length_cons, List.length_cons, List.length_nil] at hlength
      exact absurd (List.length_eq_zero_iff.1 (by omega)) hnil
  · exact ⟨z, rfl⟩

/-- The shell is put in behind the two tags, in the order in which they stand. -/
theorem shelled_cases (hbody : BehindBody bare body) (hyield : BehindYield bare behind) :
    (∃ p q, bare = p ++ (q ++ behind) ∧ body = q ++ behind ∧ yieldTag <:+ q
        ∧ shelled bare = p ++ (opened ++ (q ++ (closed ++ behind))))
      ∨ ∃ p q, bare = p ++ (q ++ body) ∧ behind = q ++ body ∧ yieldTag <:+ p
        ∧ shelled bare = p ++ (closed ++ (q ++ (opened ++ body))) := by
  obtain ⟨front, tag, hbare, htag, hfirst⟩ := hbody
  obtain ⟨front', hbare', hfirst'⟩ := hyield
  have hlater : ∀ q, front ++ tag = (front' ++ yieldTag) ++ q → behind = q ++ body →
      ∃ p q, bare = p ++ (q ++ body) ∧ behind = q ++ body ∧ yieldTag <:+ p
        ∧ shelled bare = p ++ (closed ++ (q ++ (opened ++ body))) := by
    rintro q hcut rfl
    exact ⟨front' ++ yieldTag, q, by rw [hbare', List.append_assoc], rfl, List.suffix_append ..,
      shelled_of_yield_first hbare htag hfirst hfirst' hcut⟩
  have heq : (front ++ tag) ++ body = (front' ++ yieldTag) ++ behind := by
    rw [List.append_assoc, ← hbare, hbare', List.append_assoc]
  rcases List.append_eq_append_iff.1 heq with ⟨q, hcut, rfl⟩ | ⟨q, hcut, hq⟩
  · by_cases hnil : q = []
    · subst hnil
      exact .inr (hlater [] (by rw [hcut]; simp) rfl)
    · refine .inl ?_
      obtain ⟨mid, rfl⟩ := htag.exists_behind hnil hcut
      have hanchored : Anchored bare (front ++ tag) mid behind := by
        refine ⟨by rw [hbare]; simp, ⟨front, tag, rfl, htag, hfirst⟩, ?_⟩
        rw [← List.append_assoc] at hcut
        rwa [← List.append_cancel_right hcut]
      refine ⟨front ++ tag, mid ++ yieldTag, by rw [hbare]; simp, rfl, List.suffix_append .., ?_⟩
      rw [hanchored.shelled_eq, placed, List.append_assoc mid]
  · exact .inr (hlater q hcut hq)

-- ============================================================================ shape

/-- What a layout is with the shell around the body of the page. -/
structure Shaped (bare start mid rest new : Text) : Prop where
  /-- The header and the start of the main element stand behind the body tag, the end of the main
  element and the footer behind the yield tag, and all else is as it was. -/
  text : new = start ++ ("\n    " ++ headerTag ++ "\n    " ++ mainOpen ++ mid ++ yieldTag
    ++ "\n    " ++ mainClose ++ "\n    " ++ footerTag ++ rest)
  bare : bare = start ++ mid ++ yieldTag ++ rest
  /-- The yield tag is the first one. -/
  first : ¬ yieldTag <:+: start ++ ("\n    " ++ headerTag ++ "\n    " ++ mainOpen ++ mid)
  mainOpen_once : occurrences "<main" new = 1
  mainClose_once : occurrences mainClose new = 1
  again : insert new = .ok none

/-- The shell is put around the body of the page once and in order, or what is refused lacks an
anchor. -/
theorem insert_shape (hbare : bare = withoutMain (withCharset layout)) :
    (∀ new start mid rest, insert layout = .ok (some new) → ¬ "<main".toList <:+: bare →
      ¬ mainClose <:+: bare → Anchored bare start mid rest → Shaped bare start mid rest new)
    ∧ ∀ refusal, insert layout = .error refusal →
      (∀ front tag back, layout = front ++ (tag ++ back) → ¬ IsBodyTag tag) ∨ ¬ yieldTag <:+: layout := by
  refine ⟨fun new start mid rest h hopen hclose hanchored => ?_, fun refusal h => ?_⟩
  · obtain rfl : new = placed start mid rest := by
      rw [insert_eq_some h, ← hbare, hanchored.shelled_eq]
    refine ⟨by simp [placed, opened_eq, closed_eq], by simp [hanchored.text], ?_, ?_, ?_, ?_⟩
    · simpa [opened_eq] using hanchored.first_placed
    · have hbefore := occurrences_eq_zero_iff.2 hopen
      have hshell : occurrences "<main".toList opened + occurrences "<main".toList closed = 1 := by decide +kernel
      rw [hanchored.occurrences_placed (by decide) (by decide), hbefore, hshell]
    · have hbefore := occurrences_eq_zero_iff.2 hclose
      have hshell : occurrences mainClose opened + occurrences mainClose closed = 1 := by decide +kernel
      rw [hanchored.occurrences_placed (by decide) (by decide), hbefore, hshell]
    · refine insert_of_header ?_
      refine ⟨start ++ "\n    ".toList,
        "\n    ".toList ++ (mainOpen ++ (mid ++ (yieldTag ++ (closed ++ rest)))), ?_⟩
      simp [placed, opened_eq]
  · rcases insert_eq_error h with ⟨-, hbody⟩ | ⟨-, hyield⟩
    · exact .inl hbody
    · exact .inr hyield

/-- A small layout with a main element of its own. -/
def mainLayout : Text := "<body>\n<main>\n<%= yield %></main>\n"

/-- The main element of a layout makes way for that of the shell. -/
theorem insert_shape_main :
    insert mainLayout = .ok (some (placed "<body>" "\n" "\n"))
      ∧ Shaped "<body>\n<%= yield %>\n" "<body>" "\n" "\n" (placed "<body>" "\n" "\n") := by
  have hcharset : withCharset mainLayout = mainLayout := by decide +kernel
  have hbare : "<body>\n<%= yield %>\n".toList = withoutMain (withCharset mainLayout) := by
    rw [hcharset]
    decide +kernel
  have hanchored : Anchored "<body>\n<%= yield %>\n" "<body>" "\n" "\n" :=
    ⟨by decide, ⟨[], "<body>".toList, by decide, ⟨[], by decide, by decide⟩, by decide⟩, by decide⟩
  have hinsert : insert mainLayout = .ok (some (placed "<body>" "\n" "\n")) := by
    rw [insert_of_anchors (by decide +kernel) (by decide +kernel) (by decide +kernel), ← hbare,
      hanchored.shelled_eq]
  exact ⟨hinsert, (insert_shape hbare).1 _ _ _ _ hinsert (by decide +kernel) (by decide +kernel) hanchored⟩

end SiteScaffold.Patch.Shell

/-
Layout directives in a text that stays what it is around them. The text is cut in
two after the line that opens the class, and the directives put in by the program
stand at the cut, the latest first. There a search for one of them finds exactly
that one:

- the first line that opens the class ends at the cut whatever stands behind it
  (`endsFirst_classLine`);
- a declaration is told by the lines it stands on (`lineBased_declaration`), so
  none is to be found in the text around the directives that had none before;
- another directive does not declare this layout (`clear_directive`): it has two
  quotation marks, and another name between them;
- the match at the directive itself is the directive with the empty line after it
  (`prefers_directiveLine`).

So insertion adds the directive in front or is refused (`insert_withDirectives`), and
removal takes out that directive and nothing else (`remove_withDirectives`).
-/
import SiteScaffold.Patch.Fragment
import SiteScaffold.Proofs.Pattern.Lines

namespace SiteScaffold.Patch.LayoutDirective

open Pattern
open Text (EndsLine NoRun)

variable {layout other view : Text} {before : Option Char} {front back s t u rest : Text}

-- ====================================================== reading the patterns

theorem startsAt_declaration :
    (declaration layout).StartsAt before t ↔ Keyed "layout".toList layout t := startsAt_keyed

/-- A line that declares the layout starts with white space and the
declaration. -/
theorem of_startsAt_directiveLine (h : (directiveLine layout).StartsAt before t) :
    OnNewLine before ∧ ∃ a s, t = a ++ s ∧ (∀ c ∈ a, isSpacing c)
      ∧ Keyed "layout".toList layout s := by
  have hstart : (lineStart ++ spacing ++ declaration layout).StartsAt before t := h.left.left
  obtain ⟨u, s, rfl, hmatches, hdeclaration⟩ := startsAt_append.1 hstart
  obtain ⟨_, a, rfl, hline, ha⟩ := matches_append.1 hmatches
  obtain ⟨rfl, hbefore⟩ := matches_lineStart.1 hline
  exact ⟨hbefore, a, s, rfl, matches_spacing.1 ha, startsAt_declaration.1 hdeclaration⟩

/-- A declaration is told by the lines it stands on. -/
theorem lineBased_declaration (hlayout : Name.IsNormal layout) :
    (declaration layout).LineBased where
  onNewLine := by
    intro before before' t _ _ h
    exact startsAt_declaration.2 (startsAt_declaration.1 h)
  within := by
    intro before t rest rest' ht hne hnext h
    have hkeyed := (startsAt_declaration.1 h).within (by decide) (hlayout.notMem (by decide)) ht hne hnext
    exact startsAt_declaration.2 hkeyed.append

/-- Where nothing declares the layout, no line does. -/
theorem clear_directiveLine (ht : EndsLine t ∨ rest = []) (h : (declaration layout).Clear before t rest) :
    (directiveLine layout).Clear before t rest := by
  rw [clear_iff] at h ⊢
  rintro u v rfl hne hstart
  obtain ⟨-, a, s, heq, ha, hkeyed⟩ := of_startsAt_directiveLine hstart
  have hcut : ∃ w, v = a ++ w ∧ s = w ++ rest ∧ w ≠ [] := by
    rcases ht with ht | rfl
    · obtain ⟨r, rfl⟩ := ht.of_append hne
      rw [List.append_assoc] at heq
      obtain ⟨y, rfl, rfl⟩ := Text.exists_append_of_notMem heq (newline_notMem_spacing ha)
      exact ⟨y ++ ['\n'], by simp, by simp, by simp⟩
    · rw [List.append_nil] at heq
      refine ⟨s, heq, by simp, ?_⟩
      rintro rfl
      obtain ⟨g, o, c, r, hnil, -⟩ := hkeyed
      cases hnil
  obtain ⟨w, rfl, rfl, hw⟩ := hcut
  exact h (u ++ a) w (by simp) hw (startsAt_declaration.2 hkeyed)

-- ============================================================= other directives

theorem directive_eq (layout view : Text) :
    directive layout view = "  layout ".toList
      ++ '"' :: (layout ++ '"' :: (", only: :".toList ++ (view ++ "\n\n".toList))) := by
  unfold directive
  simp only [String.reduceToList, List.append_assoc, List.cons_append, List.nil_append]

theorem endsLine_directive (layout view : Text) : EndsLine (directive layout view) := by
  have hend : "\n\n".toList = ['\n'] ++ ['\n'] := rfl
  unfold directive
  rw [hend, ← List.append_assoc]
  exact Text.endsLine_newline

/-- Text without quotation marks declares nothing. -/
theorem clear_of_unquoted (hlayout : Name.IsNormal layout) (ht : EndsLine t)
    (hquotes : ∀ c ∈ t, isQuote c = false) (hnext : Unquoted rest) :
    (declaration layout).Clear before t rest := by
  rw [clear_iff]
  rintro u v rfl hne hstart
  have hkeyed := (startsAt_declaration.1 hstart).within (by decide) (hlayout.notMem (by decide))
    (.inr (ht.of_append hne)) hne hnext
  obtain ⟨c, hc, hquote⟩ := hkeyed.exists_quote
  rw [hquotes c (List.mem_append_right _ hc)] at hquote
  cases hquote

/-- A directive declares no other layout: what stands between its two quotation
marks is another name. -/
theorem clear_directive (hlayout : Name.IsNormal layout) (hother : Name.IsNormal other)
    (hview : Name.IsNormal view) (hdiff : layout ≠ other) (hnext : Unquoted rest) :
    (declaration layout).Clear before (directive other view) rest := by
  have hquotes : ∀ {name : Text}, Name.IsNormal name → ∀ c ∈ name, isQuote c = false :=
    fun h c hc => Name.not_isQuote_of_isNameChar (h.isNameChar c hc)
  rw [clear_iff]
  rintro u v htext hne hstart
  have hends : EndsLine v := by
    have hends := endsLine_directive other view
    rw [htext] at hends
    exact .inr (hends.of_append hne)
  have hkeyed := (startsAt_declaration.1 hstart).within (by decide) (hlayout.notMem (by decide))
    hends hne hnext
  have hcount : (directive other view).countP isQuote = 2 := by
    have hnone : ∀ {name : Text}, Name.IsNormal name → name.countP isQuote = 0 := by
      intro name h
      rw [List.countP_eq_zero]
      intro c hc
      simp [hquotes h c hc]
    rw [directive_eq]
    simp [hnone hother, hnone hview, isQuote]
  have hu : ∀ c ∈ u, isQuote c = false := by
    have htwo := hkeyed.two_quotes
    rw [htext, List.countP_append] at hcount
    have hzero : u.countP isQuote = 0 := by omega
    simpa using List.countP_eq_zero.1 hzero
  obtain ⟨g, o, c, r, rfl, -, hg, ho, hc⟩ := hkeyed
  rw [directive_eq] at htext
  have hsplit : "  layout ".toList
        ++ '"' :: (other ++ '"' :: (", only: :".toList ++ (view ++ "\n\n".toList)))
      = (u ++ ("layout".toList ++ g)) ++ o :: (layout ++ c :: r) := by
    rw [htext]
    simp
  have hfront : ∀ d ∈ u ++ ("layout".toList ++ g), !isQuote d := by
    intro d hd
    rcases List.mem_append.1 hd with hd | hd
    · simp [hu d hd]
    · rcases List.mem_append.1 hd with hd | hd
      · have hkeyword : ∀ d ∈ "layout".toList, !isQuote d := by decide
        exact hkeyword d hd
      · cases hquote : isQuote d with
        | false => rfl
        | true =>
            have hblank := hg d hd
            rw [Text.not_isBlank_of_isQuote hquote] at hblank
            cases hblank
  obtain ⟨-, hrest⟩ := Text.append_inj_of_span (P := fun d => !isQuote d) hsplit (by decide) hfront
    (by simp [isQuote]) (by simp [ho])
  obtain ⟨-, hargument⟩ := List.cons_eq_cons.1 hrest
  have heq := Text.append_inj_of_span (P := fun d => !isQuote d) hargument
    (fun d hd => by simp [hquotes hother d hd]) (fun d hd => by simp [hquotes hlayout d hd])
    (by simp [isQuote]) (by simp [hc])
  exact hdiff heq.1.symm

-- =========================================================== the directive itself

theorem keyed_directive (layout view : Text) :
    ∃ s, directive layout view = "  ".toList ++ s ∧ Keyed "layout".toList layout s := by
  refine ⟨"layout".toList ++ (" ".toList ++ '"' :: (layout ++ '"' ::
    (", only: :".toList ++ (view ++ "\n\n".toList)))), directive_eq layout view, ?_⟩
  exact ⟨" ".toList, '"', '"', _, rfl, by decide, by decide, by decide, by decide⟩

/-- The match at a directive is the directive with the empty line after it. -/
theorem prefers_directiveLine (hview : Name.IsNormal view) (hbefore : OnNewLine before) :
    (directiveLine layout).Prefers before (directive layout view) rest := by
  have htext : directive layout view = [] ++ "  ".toList
      ++ ("layout".toList ++ " ".toList ++ (['"'] ++ layout ++ ['"']))
      ++ (", only: :".toList ++ view) ++ "\n\n".toList := by
    rw [directive_eq]
    simp
  have hline : ∀ c ∈ ", only: :".toList ++ view, inLine c := by
    intro c hc
    have hfixed : ∀ c ∈ ", only: :".toList, inLine c := by decide
    rcases List.mem_append.1 hc with hc | hc
    · exact hfixed c hc
    · have hne := Name.ne_of_isNameChar (hview.isNameChar c hc) (d := '\n') (by decide)
      simp [inLine, hne]
  rw [htext]
  refine prefers_append (prefers_append (prefers_append (prefers_append
    (prefers_lineStart hbefore) ?_) (prefers_append (prefers_append (prefers_literal _) ?_)
      (prefers_append (prefers_append ?_ (prefers_literal _)) ?_))) ?_) prefers_lineBreakAndBlank
  · exact prefers_many (by decide) (by simp [isSpacing])
  · exact prefers_oneOrMore (by decide) (by decide) (by simp [Text.isBlank])
  · exact prefers_one (by decide)
  · exact prefers_one (by decide)
  · exact prefers_many hline (by simp [inLine])

-- =========================================================== the line of the class

/-- The parts of a line that opens the class. -/
theorem matches_classLine (h : (classLine homeClass).Matches before t rest) :
    ∃ g s s' b n, t = "class".toList ++ g ++ homeClass ++ s ++ ['<'] ++ s'
        ++ "ApplicationController".toList ++ b ++ n
      ∧ (g ≠ [] ∧ ∀ c ∈ g, Text.isBlank c) ∧ (∀ c ∈ s, Text.isBlank c) ∧ (∀ c ∈ s', Text.isBlank c)
      ∧ (∀ c ∈ b, isSpacing c) ∧ newline.Matches none n [] := by
  simp only [classLine, matches_append, matches_literal, matches_gap, matches_slack,
    matches_spacing, matches_newline] at h
  obtain ⟨_, n, rfl, ⟨_, b, rfl, ⟨_, _, rfl, ⟨_, s', rfl, ⟨_, _, rfl, ⟨_, s, rfl, ⟨_, _, rfl,
    ⟨_, g, rfl, rfl, hg⟩, rfl⟩, hs⟩, rfl⟩, hs'⟩, rfl⟩, hb⟩, hn⟩ := h
  exact ⟨g, s, s', b, n, rfl, hg, hs, hs', hb, matches_newline.2 hn⟩

theorem prefers_classLine {rest' : Text} (h : (classLine homeClass).Matches before t rest) :
    (classLine homeClass).Prefers before t rest' := by
  obtain ⟨g, s, s', b, n, rfl, ⟨hne, hg⟩, hs, hs', hb, hn⟩ := matches_classLine h
  have hstop : ∀ c ∈ (n ++ rest').head?, isSpacing c = false := by
    rcases matches_newline.1 hn with rfl | rfl
    · simp [isSpacing]
    · simp [isSpacing]
  have hclass : homeClass = 'H' :: "omeController".toList := rfl
  have hparent : "ApplicationController".toList = 'A' :: "pplicationController".toList := rfl
  have hletters : Text.isBlank 'H' = false ∧ Text.isBlank '<' = false ∧ Text.isBlank 'A' = false := by
    decide
  unfold classLine
  refine prefers_append ?_ (prefers_newline_of_matches hn)
  refine prefers_append ?_ (prefers_many hb hstop)
  refine prefers_append ?_ (prefers_literal _)
  refine prefers_append ?_ (prefers_many hs' (by rw [hparent]; simpa using hletters.2.2))
  refine prefers_append ?_ (prefers_literal ['<'])
  refine prefers_append ?_ (prefers_many hs (by simpa using hletters.2.1))
  refine prefers_append ?_ (prefers_literal _)
  refine prefers_append (prefers_literal _) ?_
  exact prefers_oneOrMore hne hg (by rw [hclass]; simpa using hletters.1)

/-- The first letter of a line that opens the class occurs once more in it, and goes on
with another letter there than at the front. -/
theorem letters_of_classLine (h : (classLine homeClass).Matches before t rest) :
    ∃ f k r, t = 'c' :: (f ++ 'c' :: 'a' :: k) ∧ 'c' ∉ f ∧ 'c' ∉ k ∧ t = 'c' :: 'l' :: r := by
  obtain ⟨g, s, s', b, n, rfl, ⟨-, hg⟩, hs, hs', hb, hn⟩ := matches_classLine h
  have hblank : ∀ {r : Text}, (∀ d ∈ r, Text.isBlank d) → 'c' ∉ r := by
    intro r hr hmem
    have hc := hr _ hmem
    cases hc
  have hspacing : 'c' ∉ b := by
    intro hmem
    have hc := hb _ hmem
    cases hc
  have hnewline : 'c' ∉ n := by
    rcases matches_newline.1 hn with rfl | rfl
    · decide
    · decide
  have hwords : 'c' ∉ "lass".toList ∧ 'c' ∉ homeClass ∧ 'c' ∉ ['<'] ∧ 'c' ∉ "Appli".toList
      ∧ 'c' ∉ "tionController".toList := by
    decide
  obtain ⟨hclass, hhome, hless, happli, hation⟩ := hwords
  have hopen : "class".toList = 'c' :: "lass".toList := rfl
  have hparent : "ApplicationController".toList = "Appli".toList ++ 'c' :: 'a' :: "tionController".toList := rfl
  refine ⟨"lass".toList ++ (g ++ (homeClass ++ (s ++ (['<'] ++ (s' ++ "Appli".toList))))),
    "tionController".toList ++ (b ++ n),
    "ass".toList ++ (g ++ (homeClass ++ (s ++ (['<'] ++ (s' ++ ("ApplicationController".toList ++ (b ++ n))))))),
    ?_, ?_, ?_, ?_⟩
  · rw [hopen, hparent]
    simp only [List.append_assoc, List.cons_append]
  · simp only [List.mem_append, not_or]
    exact ⟨hclass, hblank hg, hhome, hblank hs, hless, hblank hs', happli⟩
  · simp only [List.mem_append, not_or]
    exact ⟨hation, hspacing, hnewline⟩
  · have hopen : "class".toList = 'c' :: 'l' :: "ass".toList := rfl
    rw [hopen]
    simp only [List.append_assoc, List.cons_append]

/-- A line that opens the class has no other one inside. -/
theorem classLine_once {before' : Option Char} {x y rest' : Text}
    (h : (classLine homeClass).Matches before u rest)
    (h' : (classLine homeClass).Matches before' (x ++ (u ++ y)) rest') : x = [] := by
  obtain ⟨f, k, -, heq, hf, hk, -⟩ := letters_of_classLine h'
  obtain ⟨-, -, r, -, -, -, rfl⟩ := letters_of_classLine h
  cases x with
  | nil => rfl
  | cons c x =>
      obtain ⟨-, htail⟩ : c = 'c' ∧ x ++ 'c' :: 'l' :: (r ++ y) = f ++ 'c' :: 'a' :: k :=
        List.cons_eq_cons.1 heq
      obtain ⟨w, -, hw⟩ := Text.exists_append_of_notMem htail hf
      cases w with
      | nil =>
          obtain ⟨-, hletter⟩ := List.cons_eq_cons.1 hw
          cases hletter
      | cons d w =>
          obtain ⟨-, hletters⟩ : 'c' = d ∧ 'a' :: k = w ++ 'c' :: 'l' :: (r ++ y) :=
            List.cons_eq_cons.1 hw
          have hmem : 'c' ∈ 'a' :: k := by
            rw [hletters]
            simp
          simp [hk] at hmem

/-- The text up to the end of the first line that opens the class ends there, whatever
stands behind it. -/
theorem endsFirst_classLine {hit : Hit}
    (h : (classLine homeClass).first? t = some (front, hit, back)) :
    (classLine homeClass).EndsFirst (front ++ hit.text) := by
  refine endsFirst_of_first? h (fun _ u _ hmatches => ?_) (fun _ _ _ _ => prefers_classLine)
    (fun _ _ _ _ _ _ _ => classLine_once)
  obtain ⟨-, -, r, -, -, -, rfl⟩ := letters_of_classLine hmatches
  simp

/-- It is made of whole lines, up to the one that opens the class. -/
theorem endsLine_classLine {hit : Hit}
    (h : (classLine homeClass).first? t = some (front, hit, back)) :
    EndsLine (front ++ hit.text) := by
  obtain ⟨-, -, hmatches⟩ := of_first?_eq_some h
  obtain ⟨g, s, s', b, n, htext, -, -, -, -, hn⟩ := matches_classLine hmatches
  rw [htext, ← List.append_assoc]
  rcases matches_newline.1 hn with rfl | rfl
  · exact .inr ⟨_, (List.append_assoc _ ['\r'] ['\n']).symm⟩
  · exact Text.endsLine_newline

-- ========================================================= the directives put in

/-- Whether a layout may be declared in a content: its name is normal, and the content
does not declare it. -/
structure Fresh (content layout : Text) : Prop where
  normal : Name.IsNormal layout
  absent : (declaration layout).occursIn content = false

/-- Directives as they are written, one after another. -/
def written (directives : List (Text × Text)) : Text :=
  directives.flatMap fun (layout, view) => directive layout view

/-- A content with directives behind the line that opens the class. -/
def withDirectives (front : Text) (directives : List (Text × Text)) (back : Text) : Text :=
  front ++ (written directives ++ back)

variable {directives : List (Text × Text)}

theorem endsLine_written (directives : List (Text × Text)) : EndsLine (written directives) :=
  Text.endsLine_flatMap fun (layout, view) _ => endsLine_directive layout view

theorem unquoted_directive (layout view : Text) : Unquoted (directive layout view) := by
  obtain ⟨s, heq, -⟩ := keyed_directive layout view
  rw [directive_eq]
  exact ⟨"  ".toList, 'l', _, rfl, by decide, by decide, by decide⟩

theorem unquoted_written (hback : Unquoted back) (directives : List (Text × Text)) :
    Unquoted (written directives ++ back) :=
  unquoted_flatMap (fun (layout, view) _ => unquoted_directive layout view) hback

theorem noRun_directive (hlayout : Name.IsNormal layout) (hview : Name.IsNormal view) :
    NoRun (directive layout view) := by
  have hcount : ∀ {name : Text}, Name.IsNormal name → name.count '\n' = 0 :=
    fun h => List.count_eq_zero.2 (h.notMem (by decide))
  refine Text.noRun_of_count ?_
  rw [directive_eq]
  simp [hcount hlayout, hcount hview]

/-- What a directive may be made of. -/
def Sound (directives : List (Text × Text)) : Prop :=
  ∀ d ∈ directives, Name.IsNormal d.1 ∧ Name.IsNormal d.2

/-- A layout that no directive was put in for is not declared. -/
theorem clear_withDirectives (hfront : EndsLine front) (hback : Unquoted back)
    (hlayout : Fresh (front ++ back) layout) (hsound : Sound directives)
    (hmem : layout ∉ directives.map Prod.fst) :
    (declaration layout).Clear none (withDirectives front directives back) [] := by
  have hbased := lineBased_declaration hlayout.normal
  refine hbased.clear_insert hfront (endsLine_written directives) (unquoted_written hback directives)
    (occursIn_eq_false_iff.1 hlayout.absent) ?_
  refine clear_flatMap (P := Unquoted) (fun d _ t => (unquoted_directive d.1 d.2).append) hback ?_
  intro d hd before rest hnext
  obtain ⟨hother, hview⟩ := hsound d hd
  refine clear_directive hlayout.normal hother hview ?_ hnext
  rintro rfl
  exact hmem (List.mem_map_of_mem hd)

/-- A directive that is put in declares its layout. -/
theorem not_clear_directive : ¬ (declaration layout).Clear before (directive layout view) rest := by
  intro hclear
  obtain ⟨s, heq, hkeyed⟩ := keyed_directive layout view
  have hne : s ≠ [] := by
    obtain ⟨g, o, c, r, rfl, -⟩ := hkeyed
    simp
  exact clear_iff.1 hclear "  ".toList s heq hne (startsAt_declaration.2 hkeyed.append)

/-- Insertion adds the directive in front, unless the layout is declared. -/
theorem insert_withDirectives (view : Text) (hfirst : (classLine homeClass).EndsFirst front)
    (hfront : EndsLine front) (hback : Unquoted back) (hlayout : Fresh (front ++ back) layout)
    (hsound : Sound directives) :
    insert layout view homeClass (withDirectives front directives back)
      = if layout ∈ directives.map Prod.fst then .error (.declared layout)
        else .ok (some (withDirectives front ((layout, view) :: directives) back)) := by
  by_cases hmem : layout ∈ directives.map Prod.fst
  · obtain ⟨⟨named, shown⟩, hd, hname⟩ := List.mem_map.1 hmem
    obtain rfl : named = layout := hname
    have hdeclared : (declaration named).occursIn (withDirectives front directives back) = true :=
      occursIn_of_mem hfront (fun d _ => endsLine_directive d.1 d.2) hd
        fun _ _ _ => not_clear_directive
    rw [insert, hdeclared, if_pos hmem]
    rfl
  · have habsent := occursIn_eq_false_iff.2
      (clear_withDirectives hfront hback hlayout hsound hmem)
    obtain ⟨start, hit, hfound, rfl⟩ := hfirst (written directives ++ back)
    rw [insert, habsent, if_neg hmem, withDirectives, hfound]
    simp [withDirectives, written]

/-- Removal takes out the directive, if there is one for the layout, and nothing
else. -/
theorem remove_withDirectives (hfront : EndsLine front) (hback : Unquoted back)
    (hlayout : Fresh (front ++ back) layout) (hsound : Sound directives) :
    remove layout (withDirectives front directives back)
      = if layout ∈ directives.map Prod.fst then
          some (withDirectives front (directives.filter (·.1 ≠ layout)) back)
        else none := by
  by_cases hmem : layout ∈ directives.map Prod.fst
  · have hhit : ∀ d ∈ directives, d.1 = layout → ∀ before rest, OnNewLine before →
        (directiveLine layout).Prefers before (directive d.1 d.2) rest := by
      rintro d hd rfl before rest hbefore
      exact prefers_directiveLine (hsound d hd).2 hbefore
    obtain ⟨d, hd, hname⟩ := List.mem_map.1 hmem
    have hoccurs : (directiveLine layout).occursIn (withDirectives front directives back) = true :=
      occursIn_of_mem hfront (fun d _ => endsLine_directive d.1 d.2) hd
        fun before rest hbefore hclear => clear_iff.1 hclear [] _ rfl
          (unquoted_directive d.1 d.2).not_nil (hhit d hd hname before rest hbefore).startsAt
    obtain ⟨hclear, hclear'⟩ := (lineBased_declaration hlayout.normal).clear_around hfront
      (endsLine_written directives) (unquoted_written hback directives)
      (occursIn_eq_false_iff.1 hlayout.absent)
    have hdelete : (directiveLine layout).delete (withDirectives front directives back)
        = withDirectives front (directives.filter (·.1 ≠ layout)) back := by
      refine delete_flatMap (P := Unquoted) (·.1 = layout) hfront
        (fun d _ => endsLine_directive d.1 d.2) (fun d _ t => (unquoted_directive d.1 d.2).append)
        hback ?_ ?_ (clear_directiveLine (.inl hfront) hclear) (clear_directiveLine (.inr rfl) hclear')
      · exact fun d hd hname => ⟨(unquoted_directive d.1 d.2).not_nil, hhit d hd hname⟩
      · intro d hd hne before rest hnext
        obtain ⟨hother, hview⟩ := hsound d hd
        exact clear_directiveLine (.inl (endsLine_directive d.1 d.2))
          (clear_directive hlayout.normal hother hview (Ne.symm hne) hnext)
    rw [remove, hoccurs, hdelete, if_pos hmem]
    rfl
  · have hclear := clear_withDirectives hfront hback hlayout hsound hmem
    have habsent : (directiveLine layout).occursIn (withDirectives front directives back) = false :=
      occursIn_eq_false_iff.2 (clear_directiveLine (.inr rfl) hclear)
    rw [remove, habsent, if_neg hmem]
    rfl

end SiteScaffold.Patch.LayoutDirective

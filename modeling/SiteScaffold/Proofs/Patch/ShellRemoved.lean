/-
What is left of a layout when its shell is removed. A removal is one of lines: those go that hold
nothing but a tag of the shell, and all others stay (`remove_eq`).

An insertion puts four tags in, two behind the body tag and two behind the yield tag. Of each two the first
has a line to itself, and the second is followed by what stood behind the tag of the layout. So
all four go if both of these tags end their lines (`remove_inserted`), whichever of the two is the first in
the layout; else the tag of the shell on the longer line stays, as in a layout written on one line
(`remove_compact`).
-/
import SiteScaffold.Proofs.Patch.Shell
import SiteScaffold.Proofs.Pattern.WholeLines

namespace SiteScaffold.Patch.Shell

open Pattern
open Text (EndsLine FirstLine wholeLines)

variable {a b bare body behind e layout left line mark new p q r rest s t tag x y : Text} {before : Option Char}

-- =============================================================================== tag lines

/-- The tags of the shell. -/
def tags : List Text := [headerTag, footerTag, mainOpen, mainClose]

/-- The text behind the end of a line of which only spaces and tabs are left. -/
def afterBreak? (t : Text) : Option Text :=
  (Text.after? "\r\n" (t.dropWhile isSpacing)).or (Text.after? "\n" (t.dropWhile isSpacing))

/-- Whether a line, with its newline, holds a tag of the shell and nothing else. -/
def isTagLine (line : Text) : Bool :=
  tags.any fun tag => (Text.after? tag (line.dropWhile isSpacing)).bind afterBreak? == some []

theorem not_isSpacing_of_newline (he : newline.Matches before e rest) :
    ∀ c ∈ (e ++ t).head?, isSpacing c = false := by
  rcases matches_newline.1 he with rfl | rfl
  · simp [isSpacing]
  · simp [isSpacing]

theorem not_isSpacing_of_tag (htag : tag ∈ tags) : ∀ c ∈ (tag ++ t).head?, isSpacing c = false := by
  have hall : ∀ tag ∈ tags, tag.head? = some '<' := by decide
  intro c hc
  rw [List.head?_append, hall tag htag] at hc
  obtain rfl : '<' = c := by simpa using hc
  rfl

theorem afterBreak?_eq_some_iff : afterBreak? t = some r ↔
    ∃ b e, t = b ++ (e ++ r) ∧ (∀ c ∈ b, isSpacing c) ∧ newline.Matches none e [] := by
  constructor
  · intro h
    obtain ⟨b, s, rfl, hb, hdrop⟩ := exists_dropWhile_isSpacing t
    rw [afterBreak?, hdrop, Option.or_eq_some_iff, Text.after?_eq_some_iff, Text.after?_eq_some_iff] at h
    rcases h with rfl | ⟨-, rfl⟩
    · exact ⟨b, _, rfl, hb, matches_newline.2 (.inl rfl)⟩
    · exact ⟨b, _, rfl, hb, matches_newline.2 (.inr rfl)⟩
  · rintro ⟨b, e, rfl, hb, he⟩
    rw [afterBreak?, (dropWhile_isSpacing_eq_iff (not_isSpacing_of_newline he)).2 ⟨b, rfl, hb⟩]
    rcases matches_newline.1 he with rfl | rfl
    · rw [Text.after?_eq_some_iff.2 rfl]
      rfl
    · rfl

/-- A tag line is a tag of the shell between spaces and tabs. -/
theorem isTagLine_iff : isTagLine line = true ↔ ∃ tag ∈ tags, ∃ a b e, line = a ++ (tag ++ (b ++ e))
    ∧ (∀ c ∈ a, isSpacing c) ∧ (∀ c ∈ b, isSpacing c) ∧ newline.Matches none e [] := by
  simp only [isTagLine, List.any_eq_true, beq_iff_eq, Option.bind_eq_some_iff, Text.after?_eq_some_iff,
    afterBreak?_eq_some_iff, List.append_nil]
  refine exists_congr fun tag => and_congr_right fun htag => ?_
  constructor
  · rintro ⟨_, hdrop, b, e, rfl, hb, he⟩
    obtain ⟨a, hline, ha⟩ := (dropWhile_isSpacing_eq_iff (not_isSpacing_of_tag htag)).1 hdrop
    exact ⟨a, b, e, hline, ha, hb, he⟩
  · rintro ⟨a, b, e, rfl, ha, hb, he⟩
    exact ⟨b ++ e, (dropWhile_isSpacing_eq_iff (not_isSpacing_of_tag htag)).2 ⟨a, rfl, ha⟩, b, e, rfl, hb, he⟩

/-- A removal takes out tag lines. -/
theorem matches_shellLine : shellLine.Matches before t rest ↔ OnNewLine before ∧ isTagLine t = true := by
  have htag : ∀ {before tag rest}, (("<%= render 'shared/" ++ ("header" ||| "footer") ++ "' %>" : Pattern)
      ||| literal mainOpen ||| literal mainClose).Matches before tag rest ↔ tag ∈ tags := by
    intro before tag rest
    simp only [matches_or, matches_append, matches_literal]
    constructor
    · rintro ((⟨_, _, rfl, ⟨_, _, rfl, rfl, rfl | rfl⟩, rfl⟩ | rfl) | rfl)
      · decide
      · decide
      · decide
      · decide
    · intro hmem
      simp only [tags, List.mem_cons, List.not_mem_nil, or_false] at hmem
      rcases hmem with rfl | rfl | rfl | rfl
      · exact .inl (.inl ⟨_, _, rfl, ⟨_, _, rfl, rfl, .inl rfl⟩, rfl⟩)
      · exact .inl (.inl ⟨_, _, rfl, ⟨_, _, rfl, rfl, .inr rfl⟩, rfl⟩)
      · exact .inl (.inr rfl)
      · exact .inr rfl
  rw [isTagLine_iff]
  refine matches_alone.trans (and_congr_right fun _ => ?_)
  simp only [htag]
  constructor
  · rintro ⟨a, tag, b, e, rfl, ha, hmem, hb, he⟩
    exact ⟨tag, hmem, a, b, e, rfl, ha, hb, he⟩
  · rintro ⟨tag, hmem, a, b, e, rfl, ha, hb, he⟩
    exact ⟨a, tag, b, e, rfl, ha, hmem, hb, he⟩

/-- A tag line is one line. -/
theorem exists_of_isTagLine (h : isTagLine line = true) : ∃ s, line = s ++ ['\n'] ∧ '\n' ∉ s := by
  have hmarks : ∀ tag ∈ tags, '\n' ∉ tag := by decide
  obtain ⟨tag, htag, a, b, e, rfl, ha, hb, he⟩ := isTagLine_iff.1 h
  have hnone := newline_notMem_spacing ha
  have hnone' := newline_notMem_spacing hb
  rcases matches_newline.1 he with rfl | rfl
  · exact ⟨a ++ (tag ++ (b ++ ['\r'])), by simp, by simp [hnone, hnone', hmarks tag htag]⟩
  · exact ⟨a ++ (tag ++ b), by simp, by simp [hnone, hnone', hmarks tag htag]⟩

/-- Of two tag lines, or a tag line and a line, that a text starts with the one is the other. -/
theorem eq_of_isTagLine (h : isTagLine t = true) (hfirst : FirstLine line rest) (heq : line ++ rest = t ++ r) :
    t = line := by
  obtain ⟨s, rfl, hs⟩ := exists_of_isTagLine h
  rw [List.append_assoc, List.singleton_append] at heq
  rcases hfirst.cases with ⟨s', rfl, hs'⟩ | ⟨hnone, rfl⟩
  · rw [List.append_assoc, List.singleton_append] at heq
    rw [Text.eq_of_first heq hs' hs]
  · rw [List.append_nil] at heq
    rw [heq] at hnone
    exact absurd (by simp) hnone

/-- A text without its tag lines. -/
def kept (t : Text) : Text := ((wholeLines t).filter (!isTagLine ·)).flatten

theorem delete_shellLine (t : Text) : shellLine.delete t = kept t := by
  have hpieces : shellLine.pieces t = (wholeLines t).flatMap (linePieces isTagLine) := by
    refine pieces_eq_flatMap (by decide) (fun before line rest hbefore hfirst hline => ?_)
      (fun before line rest hbefore hfirst hline => ?_) t
    · obtain ⟨hit, hmatch⟩ := matchAt_complete
        (matches_shellLine.2 ⟨hbefore, hline⟩ : shellLine.Matches before line rest)
      obtain ⟨rest', htext, haccepts⟩ := matchAt_sound hmatch
      exact ⟨hit, hmatch, eq_of_isTagLine (matches_shellLine.1 ⟨_, haccepts⟩).2 hfirst htext⟩
    · refine clear_firstLine (fun _ _ ⟨_, _, _, hmatches⟩ => (matches_shellLine.1 hmatches).1) hfirst ?_
      rintro ⟨u, rest', htext, hmatches⟩
      have htag := (matches_shellLine.1 hmatches).2
      rw [eq_of_isTagLine htag hfirst htext] at htag
      rw [htag] at hline
      cases hline
  rw [delete, rewrite, hpieces, flatMap_write_linePieces]
  rfl

/-- A layout with the header in it has its tag lines removed, and no other. -/
theorem remove_eq_some_iff : remove t = some left ↔ headerTag <:+: t ∧ left = kept t := by
  rw [remove, delete_shellLine]
  split
  next h => rw [Option.some_inj, and_iff_right (Text.contains_iff.1 h), eq_comm]
  next h => simp [← Text.contains_iff, h]

theorem remove_eq_none_iff : remove t = none ↔ ¬ headerTag <:+: t := by
  rw [Option.eq_none_iff_forall_ne_some]
  constructor
  · exact fun h hheader => h _ (remove_eq_some_iff.2 ⟨hheader, rfl⟩)
  · exact fun h left hleft => h (remove_eq_some_iff.1 hleft).1

-- ==================================================================== texts without the tags

/-- What the tags of the shell are told by. -/
def marks : List Text := [headerTag, footerTag, "<main", mainClose]

/-- Whether a text is free of tags of the shell, and of any start tag of the main element. -/
def Free (t : Text) : Prop := ∀ mark ∈ marks, ¬ mark <:+: t

theorem Free.of_part (h : Free t) (hs : s <:+: t) : Free s :=
  fun mark hmark hpart => h mark hmark (hpart.trans hs)

theorem Free.not_tag (h : Free t) (htag : tag ∈ tags) : ¬ tag <:+: t := by
  have hmain : ∀ tag ∈ tags, ∃ mark ∈ marks, mark <:+: tag := by decide
  obtain ⟨mark, hmark, hpart⟩ := hmain tag htag
  exact fun htag => h mark hmark (hpart.trans htag)

/-- What lies on one line lies in whole lines or behind them. -/
theorem infix_append_iff (hs : EndsLine s) (hne : mark ≠ []) (hline : '\n' ∉ mark) :
    mark <:+: s ++ t ↔ mark <:+: s ∨ mark <:+: t := by
  rcases hs with rfl | ⟨r, rfl⟩
  · simp [hne]
  · exact Text.infix_append_iff hne (fun hmem => hline (List.dropLast_subset mark hmem)) List.getLast?_concat

theorem Free.append (hs : Free s) (hends : EndsLine s) (ht : Free t) : Free (s ++ t) := by
  have hmarks : ∀ mark ∈ marks, mark ≠ [] ∧ '\n' ∉ mark := by decide
  intro mark hmark
  rw [infix_append_iff hends (hmarks mark hmark).1 (hmarks mark hmark).2, not_or]
  exact ⟨hs mark hmark, ht mark hmark⟩

theorem Free.newline (h : Free t) : Free (t ++ ['\n']) := by
  have hmarks : ∀ mark ∈ marks, '\n' ∉ mark := by decide
  rintro mark hmark ⟨x, y, htext⟩
  rcases List.eq_nil_or_concat' y with rfl | ⟨y, c, rfl⟩
  · have hlast := congrArg List.getLast? htext
    rw [List.append_nil, List.getLast?_concat, List.getLast?_append] at hlast
    cases hend : mark.getLast? with
    | none => exact h mark hmark (by simp [List.getLast?_eq_none_iff.1 hend])
    | some c =>
        rw [hend] at hlast
        obtain rfl : c = '\n' := Option.some.inj hlast
        exact hmarks mark hmark (List.mem_of_getLast? hend)
  · rw [← List.append_assoc] at htext
    exact h mark hmark ⟨x, y, (List.append_inj' htext rfl).1⟩

/-- A tag line holds a tag. -/
theorem not_isTagLine_of_free (h : Free line) : isTagLine line = false := by
  rw [Bool.eq_false_iff]
  intro hline
  obtain ⟨tag, htag, a, b, e, rfl, -⟩ := isTagLine_iff.1 hline
  exact h.not_tag htag ⟨a, b ++ e, by simp⟩

theorem kept_append (hs : EndsLine s) : kept (s ++ t) = kept s ++ kept t := by
  rw [kept, Text.wholeLines_append hs, List.filter_append, List.flatten_append]
  rfl

theorem kept_of_forall (h : ∀ l ∈ wholeLines t, isTagLine l = false) : kept t = t := by
  rw [kept, List.filter_eq_self.2 fun l hl => by simp [h l hl], Text.flatten_wholeLines]

theorem Free.kept_eq (h : Free t) : kept t = t :=
  kept_of_forall fun _ hl => not_isTagLine_of_free (h.of_part (Text.infix_of_mem_wholeLines hl))

theorem kept_of_isTagLine (h : isTagLine line = true) : kept line = [] := by
  obtain ⟨s, rfl, hs⟩ := exists_of_isTagLine h
  rw [kept, Text.wholeLines_line hs, List.filter_cons_of_neg (by rw [h]; simp)]
  rfl

/-- No tag of the shell starts with another one. -/
theorem tag_unique {tag' : Text} (htag : tag ∈ tags) (htag' : tag' ∈ tags) (heq : tag ++ x = tag' ++ y) :
    tag = tag' := by
  have hall : ∀ tag ∈ tags, ∀ tag' ∈ tags, tag <+: tag' → tag = tag' := by decide
  rcases List.prefix_or_prefix_of_prefix (List.prefix_append tag x) (heq ▸ List.prefix_append tag' y) with h | h
  · exact hall tag htag tag' htag' h
  · exact (hall tag' htag' tag htag h).symm

/-- What is left of a tag that the shell has put in, and of the text behind it. -/
def leftOf (tag behind : Text) : Text := (afterBreak? behind).getD ("    " ++ tag ++ behind)

/-- The tag goes with its line if only spaces and tabs are behind it there. -/
theorem kept_tag (htag : tag ∈ tags) (hfree : Free t) : kept ("    ".toList ++ (tag ++ t)) = leftOf tag t := by
  have hspaces : ∀ c ∈ "    ".toList, isSpacing c := by decide
  cases hbreak : afterBreak? t with
  | some r =>
      obtain ⟨b, e, rfl, hb, he⟩ := afterBreak?_eq_some_iff.1 hbreak
      have hline : isTagLine ("    ".toList ++ (tag ++ (b ++ e))) = true :=
        isTagLine_iff.2 ⟨tag, htag, _, b, e, rfl, hspaces, hb, he⟩
      obtain ⟨s, hs, -⟩ := exists_of_isTagLine hline
      have htext : "    ".toList ++ (tag ++ (b ++ (e ++ r))) = ("    ".toList ++ (tag ++ (b ++ e))) ++ r := by simp
      rw [leftOf, hbreak, htext, kept_append (by rw [hs]; exact Text.endsLine_newline), kept_of_isTagLine hline]
      exact (hfree.of_part ⟨b ++ e, [], by simp⟩).kept_eq
  | none =>
      have hline : '\n' ∉ "    ".toList ++ tag := by
        have hall : ∀ tag ∈ tags, '\n' ∉ "    ".toList ++ tag := by decide
        exact hall tag htag
      obtain ⟨line, rest, hcut, hfirst⟩ := Text.exists_firstLine (t := "    ".toList ++ (tag ++ t)) (by simp)
      -- the tag is on the first line, with all of the line behind it
      obtain ⟨x, rfl, rfl⟩ : ∃ x, line = "    ".toList ++ (tag ++ x) ∧ t = x ++ rest := by
        rw [← List.append_assoc] at hcut
        rcases hfirst.cases with ⟨s, rfl, -⟩ | ⟨-, rfl⟩
        · rw [List.append_assoc s, List.singleton_append] at hcut
          obtain ⟨x, rfl, rfl⟩ := Text.exists_append_of_notMem hcut.symm hline
          exact ⟨x ++ ['\n'], by simp, by simp⟩
        · exact ⟨t, by rw [← List.append_assoc, hcut, List.append_nil], (List.append_nil t).symm⟩
      have hsame : kept ("    ".toList ++ (tag ++ (x ++ rest))) = "    ".toList ++ (tag ++ (x ++ rest)) := by
        refine kept_of_forall fun l hl => ?_
        rw [hcut, hfirst, List.mem_cons] at hl
        rcases hl with rfl | hl
        · rw [Bool.eq_false_iff]
          intro htagline
          obtain ⟨tag', htag', a, b, e, heq, ha, hb, he⟩ := isTagLine_iff.1 htagline
          obtain ⟨-, hrest⟩ :=
            Text.append_inj_of_span heq hspaces ha (not_isSpacing_of_tag htag) (not_isSpacing_of_tag htag')
          obtain rfl := tag_unique htag htag' hrest
          obtain rfl := List.append_cancel_left hrest
          rw [List.append_assoc, afterBreak?_eq_some_iff.2 ⟨b, e, rfl, hb, he⟩] at hbreak
          cases hbreak
        · exact not_isTagLine_of_free (hfree.of_part ((Text.infix_of_mem_wholeLines hl).trans ⟨x, [], by simp⟩))
      rw [leftOf, hbreak, hsame]
      simp

/-- Two tags of the shell, each on a new line. -/
def pair (first second : Text) : Text := "\n    " ++ first ++ "\n    " ++ second

theorem pair_eq (first second : Text) :
    pair first second = "\n    ".toList ++ first ++ "\n    ".toList ++ second := rfl

/-- The first of two tags has a line to itself and goes. -/
theorem kept_pair {tag' : Text} (htag : tag ∈ tags) (t : Text) :
    kept (p ++ (pair tag tag' ++ t)) = kept (p ++ ['\n']) ++ kept ("    ".toList ++ (tag' ++ t)) := by
  have hspaces : ∀ c ∈ "    ".toList, isSpacing c := by decide
  have hline : isTagLine ("    ".toList ++ (tag ++ ([] ++ ['\n']))) = true :=
    isTagLine_iff.2 ⟨tag, htag, _, [], _, rfl, hspaces, by simp, matches_newline.2 (.inr rfl)⟩
  have hends : EndsLine ("    ".toList ++ (tag ++ ([] ++ ['\n']))) := by
    obtain ⟨s, hs, -⟩ := exists_of_isTagLine hline
    rw [hs]
    exact Text.endsLine_newline
  have htext : p ++ (pair tag tag' ++ t)
      = (p ++ ['\n']) ++ (("    ".toList ++ (tag ++ ([] ++ ['\n']))) ++ ("    ".toList ++ (tag' ++ t))) := by
    simp [pair_eq]
  rw [htext, kept_append (s := p ++ ['\n']) Text.endsLine_newline, kept_append hends, kept_of_isTagLine hline,
    List.nil_append]

/-- Of two pairs of tags in a text without any, the second tags are left with what is behind
them on their lines. -/
theorem kept_pairs {tag' tag₂ tag₂' : Text} (htag : tag ∈ tags) (htag' : tag' ∈ tags) (htag₂ : tag₂ ∈ tags)
    (htag₂' : tag₂' ∈ tags) (hp : Free p) (hq : Free q) (hr : Free r) :
    kept (p ++ (pair tag tag' ++ (q ++ (pair tag₂ tag₂' ++ r))))
      = (p ++ ['\n']) ++ (leftOf tag' (q ++ ['\n']) ++ leftOf tag₂' r) := by
  have hsplit : ∀ t, "    ".toList ++ (tag' ++ (q ++ t)) = ("    ".toList ++ (tag' ++ q)) ++ t := by simp
  rw [kept_pair htag, hp.newline.kept_eq, hsplit, kept_pair htag₂, ← hsplit, kept_tag htag' hq.newline,
    kept_tag htag₂' hr]

-- ================================================================================ removed

/-- The start of the end of a line, and a newline behind it, end a line. -/
theorem exists_newline_append (h : newline.Matches none (x ++ y) []) :
    ∃ e r, x ++ ['\n'] = e ++ r ∧ newline.Matches none e [] := by
  have hnewline : newline.Matches none ['\n'] [] := matches_newline.2 (.inr rfl)
  cases x with
  | nil => exact ⟨['\n'], [], rfl, hnewline⟩
  | cons c x =>
      rcases matches_newline.1 h with heq | heq
      · obtain ⟨rfl, htail⟩ : c = '\r' ∧ x ++ y = ['\n'] := List.cons_eq_cons.1 heq
        rcases List.append_eq_singleton_iff.1 htail with ⟨rfl, -⟩ | ⟨rfl, -⟩
        · exact ⟨"\r\n".toList, [], rfl, matches_newline.2 (.inl rfl)⟩
        · exact ⟨"\r\n".toList, ['\n'], rfl, matches_newline.2 (.inl rfl)⟩
      · obtain ⟨rfl, -⟩ : c = '\n' ∧ x ++ y = [] := List.cons_eq_cons.1 heq
        exact ⟨['\n'], x ++ ['\n'], rfl, hnewline⟩

/-- Where a text ends a line early on, what is in front of any place there and a newline do. -/
theorem isSome_afterBreak?_append (h : (afterBreak? (q ++ r)).isSome) : (afterBreak? (q ++ ['\n'])).isSome := by
  obtain ⟨rest, hrest⟩ := Option.isSome_iff_exists.1 h
  obtain ⟨b, e, htext, hb, he⟩ := afterBreak?_eq_some_iff.1 hrest
  have hbreak : ∀ {b e x : Text}, (∀ c ∈ b, isSpacing c) → newline.Matches none e [] →
      (afterBreak? (b ++ (e ++ x))).isSome :=
    fun hb he => Option.isSome_iff_exists.2 ⟨_, afterBreak?_eq_some_iff.2 ⟨_, _, rfl, hb, he⟩⟩
  rw [← List.append_assoc] at htext
  rcases List.append_eq_append_iff.1 htext with ⟨z, hcut, -⟩ | ⟨z, rfl, -⟩
  · rcases List.append_eq_append_iff.1 hcut with ⟨w, rfl, rfl⟩ | ⟨w, rfl, rfl⟩
    · obtain ⟨e, x, hend, he⟩ := exists_newline_append he
      rw [List.append_assoc, hend]
      exact hbreak hb he
    · exact hbreak (x := []) (fun c hc => hb c (List.mem_append_left _ hc)) (matches_newline.2 (.inr rfl))
  · rw [List.append_assoc, List.append_assoc]
    exact hbreak hb he

/-- What is left of two pairs of tags where both the places they were put in at end their lines: a text
without any of them, with what stood in front of the places and between them. -/
theorem exists_kept_pairs {tag' tag₂ tag₂' : Text} (htag : tag ∈ tags) (htag' : tag' ∈ tags) (htag₂ : tag₂ ∈ tags)
    (htag₂' : tag₂' ∈ tags) (hfree : Free (p ++ (q ++ r))) (hends : (afterBreak? (q ++ r)).isSome)
    (hends' : (afterBreak? r).isSome) :
    ∃ x y, kept (p ++ (pair tag tag' ++ (q ++ (pair tag₂ tag₂' ++ r)))) = (p ++ ['\n']) ++ (x ++ y)
      ∧ Free ((p ++ ['\n']) ++ (x ++ y)) ∧ ∃ b e, q ++ ['\n'] = b ++ (e ++ x) ∧ (∀ c ∈ b, isSpacing c)
        ∧ newline.Matches none e [] := by
  have hp : Free p := hfree.of_part ⟨[], q ++ r, rfl⟩
  have hq : Free q := hfree.of_part ⟨p, r, by simp⟩
  have hr : Free r := hfree.of_part ⟨p ++ q, [], by simp⟩
  obtain ⟨x, hx⟩ := Option.isSome_iff_exists.1 (isSome_afterBreak?_append hends)
  obtain ⟨y, hy⟩ := Option.isSome_iff_exists.1 hends'
  obtain ⟨b, e, hcut, hb, he⟩ := afterBreak?_eq_some_iff.1 hx
  obtain ⟨b', e', rfl, -, -⟩ := afterBreak?_eq_some_iff.1 hy
  refine ⟨x, y, ?_, ?_, b, e, hcut, hb, he⟩
  · rw [kept_pairs htag htag' htag₂ htag₂' hp hq hr, leftOf, leftOf, hx, hy]
    rfl
  · have hxends : EndsLine x := by
      by_cases hnil : x = []
      · exact .inl hnil
      · have hline : EndsLine ((b ++ e) ++ x) := by
          rw [List.append_assoc, ← hcut]
          exact Text.endsLine_newline
        exact .inr (hline.of_append hnil)
    have hxfree : Free x := hq.newline.of_part ⟨b ++ e, [], by rw [hcut]; simp⟩
    exact hp.newline.append Text.endsLine_newline (hxfree.append hxends (hr.of_part ⟨b' ++ e', [], by simp⟩))

/-- Where the body tag and the yield tag end their lines, the shell leaves nothing of itself, and the yield tag. -/
theorem kept_shelled (hbody : BehindBody bare body) (hyield : BehindYield bare behind) (hfree : Free bare)
    (hends : (afterBreak? body).isSome) (hends' : (afterBreak? behind).isSome) :
    Free (kept (shelled bare)) ∧ yieldTag <:+: kept (shelled bare) := by
  have hmem : headerTag ∈ tags ∧ footerTag ∈ tags ∧ mainOpen ∈ tags ∧ mainClose ∈ tags := by decide
  obtain ⟨hheader, hfooter, hopen, hclose⟩ := hmem
  rcases shelled_cases hbody hyield with ⟨p, q, rfl, rfl, hq, hshelled⟩ | ⟨p, q, rfl, rfl, hp, hshelled⟩
  · obtain ⟨x, y, hkept, hleft, b, e, hcut, hb, he⟩ :=
      exists_kept_pairs hheader hopen hclose hfooter hfree hends hends'
    have hsame : kept (shelled (p ++ (q ++ behind))) = (p ++ ['\n']) ++ (x ++ y) := by
      rw [hshelled]
      exact hkept
    rw [hsame]
    refine ⟨hleft, ?_⟩
    -- the yield tag is on a later line than the body tag
    obtain ⟨mid, rfl⟩ := hq
    obtain ⟨tail, htail, -⟩ := exists_yieldTag
    have hbreak : '<' ∉ b ++ e := by
      rw [List.mem_append, not_or]
      refine ⟨fun hmem => absurd (hb _ hmem) (by decide), fun hmem => ?_⟩
      rcases matches_newline.1 he with rfl | rfl
      · exact absurd hmem (by decide)
      · exact absurd hmem (by decide)
    have hline : mid ++ '<' :: (tail ++ ['\n']) = (b ++ e) ++ x := by
      rw [List.append_assoc b, ← hcut, htail]
      simp
    obtain ⟨w, -, rfl⟩ := Text.exists_append_of_notMem hline hbreak
    rw [htail]
    exact ⟨(p ++ ['\n']) ++ w, ['\n'] ++ y, by simp⟩
  · obtain ⟨x, y, hkept, hleft, -⟩ := exists_kept_pairs hclose hfooter hheader hopen hfree hends' hends
    have hsame : kept (shelled (p ++ (q ++ body))) = (p ++ ['\n']) ++ (x ++ y) := by
      rw [hshelled]
      exact hkept
    rw [hsame]
    exact ⟨hleft, hp.isInfix.trans ⟨[], ['\n'] ++ (x ++ y), by simp⟩⟩

/-- Nothing is taken out exactly if no line holds a tag alone. -/
theorem kept_eq_iff : kept t = t ↔ ∀ l ∈ wholeLines t, isTagLine l = false := by
  refine ⟨fun h l hl => ?_, kept_of_forall⟩
  have hlines : (wholeLines t).filter (!isTagLine ·) = wholeLines t := by
    rw [← Text.wholeLines_flatten_of_sublist List.filter_sublist, ← kept, h]
  simpa using List.filter_eq_self.1 hlines l hl

-- a header inside a line is found, and left
example : remove "<p><%= render 'shared/header' %></p>" = some "<p><%= render 'shared/header' %></p>" := by decide +kernel

/-- A removal takes all of the shell out again, if the body tag and the yield tag of the layout end
their lines; and a removal that changes nothing has found the header, but no line to take out. -/
theorem remove_inserted (hbare : bare = withoutMain (withCharset layout)) (hfree : Free bare)
    (hbody : BehindBody bare body) (hyield : BehindYield bare behind)
    (hends : (afterBreak? body).isSome) (hends' : (afterBreak? behind).isSome)
    (hinsert : insert layout = .ok (some new)) :
    (∃ left, remove new = some left ∧ left ≠ new ∧ Free left ∧ yieldTag <:+: left ∧ remove left = none)
      ∧ ∀ t left, remove t = some left → (left = t ↔ ∀ l ∈ wholeLines t, isTagLine l = false) := by
  refine ⟨?_, fun t left hremove => ?_⟩
  · obtain rfl : new = shelled bare := by rw [insert_eq_some hinsert, hbare]
    obtain ⟨hfree', hyield'⟩ := kept_shelled hbody hyield hfree hends hends'
    have hgone : ¬ headerTag <:+: kept (shelled bare) := hfree' headerTag (by decide)
    have hthere : headerTag <:+: shelled bare := by
      have hopened : headerTag <:+: opened := ⟨"\n    ".toList, "\n    ".toList ++ mainOpen, by simp [opened_eq]⟩
      rcases shelled_cases hbody hyield with ⟨p, q, -, -, -, heq⟩ | ⟨p, q, -, -, -, heq⟩
      · rw [heq]
        exact hopened.trans ⟨p, q ++ (closed ++ behind), by simp⟩
      · rw [heq]
        exact hopened.trans ⟨p ++ (closed ++ q), body, by simp⟩
    refine ⟨_, remove_eq_some_iff.2 ⟨hthere, rfl⟩, fun hsame => hgone ?_, hfree', hyield', remove_eq_none_iff.2 hgone⟩
    rwa [hsame]
  · rw [(remove_eq_some_iff.1 hremove).2]
    exact kept_eq_iff

/-- A layout in which the body tag and the yield tag end their lines. -/
def lined : Text := "<body class=\"app\">  \n  <%= yield %>\n</body>\n"

theorem remove_inserted_lined : ∃ new left, insert lined = .ok (some new) ∧ remove new = some left ∧ left ≠ new
    ∧ Free left ∧ yieldTag <:+: left ∧ remove left = none := by
  have hcharset : withCharset lined = lined := by decide +kernel
  have hbare : lined = withoutMain (withCharset lined) := by
    rw [hcharset]
    decide +kernel
  have hbody : BehindBody lined "  \n  <%= yield %>\n</body>\n" :=
    ⟨[], "<body class=\"app\">".toList, by decide, ⟨" class=\"app\"".toList, by decide, by decide⟩, by decide⟩
  have hyield : BehindYield lined "\n</body>\n" := ⟨"<body class=\"app\">  \n  ".toList, by decide, by decide +kernel⟩
  have hinsert : insert lined = .ok (some (shelled (withoutMain (withCharset lined)))) :=
    insert_of_anchors (by decide +kernel) (by decide +kernel) (by decide +kernel)
  have hfree : Free lined := by
    unfold Free
    decide +kernel
  obtain ⟨left, hleft⟩ := (remove_inserted hbare hfree hbody hyield (by decide) (by decide) hinsert).1
  exact ⟨_, left, hinsert, hleft⟩

/-- A layout on one line. -/
def compact : Text := "<body><%= yield %></body>"

/-- Of the shell of a layout on one line the start of the main element and the footer are left. -/
theorem remove_compact : ∃ new left, insert compact = .ok (some new) ∧ remove new = some left
    ∧ mainOpen <:+: left ∧ footerTag <:+: left ∧ ¬ mainClose <:+: left := by
  refine ⟨"<body>" ++ opened ++ yieldTag ++ closed ++ "</body>",
    "<body>\n    " ++ mainOpen ++ yieldTag ++ "\n    " ++ footerTag ++ "</body>", ?_, ?_, ?_, ?_, ?_⟩
  all_goals decide +kernel

end SiteScaffold.Patch.Shell

/-
When a package counts as used, and when as pinned. A script refers to a package where the keyword
`from` or `import` is followed by the package in quotation marks, and a view wherever it has the
package in quotation marks (`occursIn_scripts`, `occursIn_quoted`). That covers an import of several
things from the package, which ends in the keyword `from` (`from_of_import`).

The lines of an importmap are blank, comments, or pins (`IsMapLine`). What the search for a pin
finds at the start of a line is the first line from there on that is not blank, as only white space
may come before the keyword (`pins_of_ahead`); the argument of a keyword is told by its quotation
marks (`Keyed.unique`). So a package is pinned just if a line pins it (`occursIn_pinLine`).
-/
import SiteScaffold.Proofs.Disk.Stands
import SiteScaffold.Proofs.Edit
import SiteScaffold.Proofs.Path.Under
import SiteScaffold.Proofs.Pattern.WholeLines
import SiteScaffold.Usage

namespace SiteScaffold

open Pattern
open Text (EndsLine)

variable {package p q line a r s t u : Text} {before : Option Char} {lines : List Text}

-- ========================================================================== patterns

namespace Usage

theorem occursIn_quoted : (quoted package).occursIn t = true
    ↔ ∃ m, (∃ o c, isQuote o ∧ isQuote c ∧ m = o :: package ++ [c]) ∧ m <:+: t :=
  occursIn_iff_infix matches_quoted (by rintro ⟨o, c, -, -, hnil⟩; cases hnil)

/-- What is imported from a package comes from it. -/
theorem from_of_import
    (himport : ("import" ++ gap ++ oneOrMore inLine ++ gap ++ "from" ++ gap ++ quoted package : Pattern).occursIn t = true) :
    ("from" ++ gap ++ quoted package : Pattern).occursIn t = true := by
  obtain ⟨u, _, rfl, -, _, rest, rfl, h⟩ := exists_startsAt himport
  obtain ⟨_, m, rfl, h, hquoted⟩ := matches_append.1 h
  obtain ⟨_, g, rfl, h, hgap⟩ := matches_append.1 h
  obtain ⟨front, _, rfl, -, hfrom⟩ := matches_append.1 h
  obtain rfl := matches_literal.1 hfrom
  obtain ⟨hne, hg⟩ := matches_gap.1 hgap
  obtain ⟨o, c, ho, hc, rfl⟩ := matches_quoted.1 hquoted
  exact occursIn_keyed.2 ⟨u ++ front, _, by simp, g, o, c, rest, rfl, hne, hg, ho, hc⟩

/-- The patterns for the package behind a keyword. -/
def behindKeyword (package : Text) : List Pattern :=
  ["from" ++ gap ++ quoted package, "import" ++ gap ++ quoted package]

theorem occursIn_behindKeyword : (∃ pattern ∈ behindKeyword package, pattern.occursIn t = true)
    ↔ ∃ u m, t = u ++ m ∧ ∃ keyword ∈ ["from".toList, "import".toList], Keyed keyword package m := by
  constructor
  · rintro ⟨pattern, hmem, hoccurs⟩
    rcases List.mem_cons.1 hmem with rfl | hmem
    · obtain ⟨u, m, htext, hkeyed⟩ := occursIn_keyed.1 hoccurs
      exact ⟨u, m, htext, _, .head _, hkeyed⟩
    · obtain rfl := List.mem_singleton.1 hmem
      obtain ⟨u, m, htext, hkeyed⟩ := occursIn_keyed.1 hoccurs
      exact ⟨u, m, htext, _, .tail _ (.head _), hkeyed⟩
  · rintro ⟨u, m, htext, keyword, hmem, hkeyed⟩
    rcases List.mem_cons.1 hmem with rfl | hmem
    · exact ⟨_, .head _, occursIn_keyed.2 ⟨u, m, htext, hkeyed⟩⟩
    · obtain rfl := List.mem_singleton.1 hmem
      exact ⟨_, .tail _ (.head _), occursIn_keyed.2 ⟨u, m, htext, hkeyed⟩⟩

/-- An import of several things adds nothing. -/
theorem occursIn_scripts : (∃ pattern ∈ behindKeyword package
        ++ ["import" ++ gap ++ oneOrMore inLine ++ gap ++ "from" ++ gap ++ quoted package],
      pattern.occursIn t = true) ↔ ∃ pattern ∈ behindKeyword package, pattern.occursIn t = true := by
  constructor
  · rintro ⟨pattern, hmem, hoccurs⟩
    rcases List.mem_append.1 hmem with hmem | hmem
    · exact ⟨pattern, hmem, hoccurs⟩
    · obtain rfl := List.mem_singleton.1 hmem
      exact ⟨_, .head _, from_of_import hoccurs⟩
  · rintro ⟨pattern, hmem, hoccurs⟩
    exact ⟨pattern, List.mem_append_left _ hmem, hoccurs⟩

end Usage

-- ===================================================================== an importmap

namespace Pattern

/-- There is one argument without quotation marks for a keyword. -/
theorem Keyed.unique {keyword : Text} (h : Keyed keyword p t) (h' : Keyed keyword q t)
    (hp : ∀ c ∈ p, isQuote c = false) (hq : ∀ c ∈ q, isQuote c = false) : p = q := by
  obtain ⟨g, o, c, s, rfl, -, hg, ho, hc⟩ := h
  obtain ⟨g', o', c', s', heq, -, hg', ho', hc'⟩ := h'
  have hblank : ∀ {o : Char}, isQuote o → Text.isBlank o = false := Text.not_isBlank_of_isQuote
  obtain ⟨-, hrest⟩ := Text.append_inj_of_span (List.append_cancel_left heq) hg hg'
    (by simpa using hblank ho) (by simpa using hblank ho')
  exact (Text.append_inj_of_span (P := fun c => !isQuote c) (List.cons_eq_cons.1 hrest).2
    (by simpa using hp) (by simpa using hq) (by simpa using hc) (by simpa using hc')).1

end Pattern

namespace Project

/-- Whether a text has a pin of a package ahead, with at most white space before it. -/
def PinsAhead (package t : Text) : Prop :=
  ∃ a r, t = a ++ r ∧ (∀ c ∈ a, Text.isBlank c) ∧ Keyed "pin".toList package r

/-- Whether a line pins a package: a text without quotation marks, between two of them. -/
def Pins (package line : Text) : Prop := (∀ c ∈ package, isQuote c = false) ∧ PinsAhead package line

/-- The lines of an importmap. -/
inductive IsMapLine : Text → Prop
  | blank {line : Text} (hblank : ∀ c ∈ line, Text.isBlank c) : IsMapLine line
  | comment {indent rest : Text} (hindent : ∀ c ∈ indent, Text.isBlank c) : IsMapLine (indent ++ '#' :: rest)
  | pin {package line : Text} (hpins : Pins package line) : IsMapLine line

theorem head?_of_keyed (h : Keyed "pin".toList package t) : t.head? = some 'p' := by
  obtain ⟨g, o, c, s, rfl, -⟩ := h
  rfl

/-- White space in front makes no difference. -/
theorem pinsAhead_append (ha : ∀ c ∈ a, Text.isBlank c) : PinsAhead package (a ++ t) ↔ PinsAhead package t := by
  constructor
  · rintro ⟨b, r, heq, hb, hkeyed⟩
    rcases List.append_eq_append_iff.1 heq with ⟨d, rfl, rfl⟩ | ⟨d, rfl, rfl⟩
    · exact ⟨d, r, rfl, fun c hc => hb c (List.mem_append_right _ hc), hkeyed⟩
    · -- the keyword starts with no white space, so nothing of it is in front
      cases d with
      | nil => exact ⟨[], t, rfl, by simp, hkeyed⟩
      | cons c d =>
          have hhead := head?_of_keyed hkeyed
          cases hhead
          exact absurd (ha 'p' (by simp)) (by decide)
  · rintro ⟨b, r, rfl, hb, hkeyed⟩
    refine ⟨a ++ b, r, (List.append_assoc ..).symm, fun c hc => ?_, hkeyed⟩
    rcases List.mem_append.1 hc with hc | hc
    · exact ha c hc
    · exact hb c hc

/-- What is ahead comes at once if there is no white space. -/
theorem PinsAhead.keyed (h : PinsAhead package t) (ht : ∀ c ∈ t.head?, Text.isBlank c = false) :
    Keyed "pin".toList package t := by
  obtain ⟨a, r, rfl, ha, hkeyed⟩ := h
  cases a with
  | nil => exact hkeyed
  | cons c a =>
      have hblank := ha c (List.mem_cons_self ..)
      rw [ht c rfl] at hblank
      cases hblank

theorem not_pinsAhead_of_blank (h : ∀ c ∈ t, Text.isBlank c) : ¬ PinsAhead package t := by
  intro hahead
  rw [← List.append_nil t, pinsAhead_append h] at hahead
  exact (hahead.keyed (by simp)).not_nil rfl

theorem Pins.append (h : Pins package line) (t : Text) : PinsAhead package (line ++ t) := by
  obtain ⟨-, a, r, rfl, ha, hkeyed⟩ := h
  exact ⟨a, r ++ t, List.append_assoc .., ha, hkeyed.append⟩

/-- What is ahead of a line that pins a package is that package. -/
theorem Pins.eq_of_ahead (h : Pins q line) (hp : ∀ c ∈ p, isQuote c = false)
    (hahead : PinsAhead p (line ++ t)) : p = q := by
  obtain ⟨hq, a, r, rfl, ha, hkeyed⟩ := h
  rw [List.append_assoc, pinsAhead_append ha] at hahead
  have hhead : (r ++ t).head? = some 'p' := head?_of_keyed hkeyed.append
  refine (hahead.keyed fun c hc => ?_).unique hkeyed.append hp hq
  rw [hhead] at hc
  cases hc
  rfl

/-- A line pins one package. -/
theorem Pins.unique (h : Pins p line) (h' : Pins q line) : p = q :=
  h'.eq_of_ahead (t := []) h.1 (h.append [])

/-- What is ahead of the lines of an importmap is on one of them. -/
theorem pins_of_ahead (hlines : ∀ line ∈ lines, IsMapLine line) (hp : ∀ c ∈ p, isQuote c = false)
    (h : PinsAhead p (Text.join ['\n'] lines)) : ∃ line ∈ lines, Pins p line := by
  induction lines with
  | nil => exact absurd h (not_pinsAhead_of_blank (by simp [Text.join, List.intercalate]))
  | cons line lines ih =>
      have htext : ∃ rest, Text.join ['\n'] (line :: lines) = line ++ rest
          ∧ (rest = [] ∨ rest = '\n' :: Text.join ['\n'] lines) := by
        cases lines with
        | nil => exact ⟨[], by simp [Text.join, List.intercalate], .inl rfl⟩
        | cons next lines => exact ⟨_, Text.join_cons_cons '\n' line next lines, .inr rfl⟩
      obtain ⟨rest, htext, hrest⟩ := htext
      rw [htext] at h
      cases hlines line (List.mem_cons_self ..) with
      | blank hblank =>
          rw [pinsAhead_append hblank] at h
          rcases hrest with rfl | rfl
          · exact absurd h (not_pinsAhead_of_blank (by simp))
          · rw [← List.singleton_append, pinsAhead_append (by decide)] at h
            obtain ⟨found, hmem, hpins⟩ := ih (fun line hline => hlines line (List.mem_cons_of_mem _ hline)) h
            exact ⟨found, List.mem_cons_of_mem _ hmem, hpins⟩
      | @comment indent text hindent =>
          rw [List.append_assoc, pinsAhead_append hindent] at h
          have hmark : ∀ c ∈ ('#' :: text ++ rest).head?, Text.isBlank c = false := by
            rintro c ⟨⟩
            decide
          have hhead := head?_of_keyed (h.keyed hmark)
          cases hhead
      | @pin q line hpins =>
          obtain rfl := hpins.eq_of_ahead hp h
          exact ⟨line, List.mem_cons_self .., hpins⟩

theorem startsAt_pinLine : (pinLine package).StartsAt before t ↔ OnNewLine before ∧ PinsAhead package t := by
  unfold pinLine
  constructor
  · rintro ⟨_, rest, rfl, h⟩
    obtain ⟨_, m, rfl, h, hquoted⟩ := matches_append.1 h
    obtain ⟨_, g, rfl, h, hgap⟩ := matches_append.1 h
    obtain ⟨_, _, rfl, h, hpin⟩ := matches_append.1 h
    obtain ⟨_, a, rfl, hstart, ha⟩ := matches_append.1 h
    obtain ⟨rfl, hbefore⟩ := matches_lineStart.1 hstart
    obtain rfl := matches_literal.1 hpin
    obtain ⟨hne, hg⟩ := matches_gap.1 hgap
    obtain ⟨o, c, ho, hc, rfl⟩ := matches_quoted.1 hquoted
    exact ⟨hbefore, a, _, by simp, matches_slack.1 ha, g, o, c, rest, rfl, hne, hg, ho, hc⟩
  · rintro ⟨hbefore, a, _, rfl, ha, g, o, c, rest, rfl, hne, hg, ho, hc⟩
    refine ⟨[] ++ a ++ "pin".toList ++ g ++ (o :: package ++ [c]), rest, by simp, ?_⟩
    refine matches_append.2 ⟨_, _, rfl, ?_, matches_quoted.2 ⟨o, c, ho, hc, rfl⟩⟩
    refine matches_append.2 ⟨_, _, rfl, ?_, matches_gap.2 ⟨hne, hg⟩⟩
    refine matches_append.2 ⟨_, _, rfl, ?_, matches_literal.2 rfl⟩
    exact matches_append.2 ⟨_, _, rfl, matches_lineStart.2 ⟨rfl, hbefore⟩, matches_slack.2 ha⟩

/-- The lines from the start of a line on are lines of the text. -/
theorem mem_split_of_endsLine (hu : EndsLine u) (h : line ∈ Text.split '\n' s) :
    line ∈ Text.split '\n' (u ++ s) := by
  rcases hu with rfl | ⟨v, rfl⟩
  · exact h
  · rw [List.append_assoc, List.singleton_append, Text.split_append]
    exact List.mem_append_right _ h

/-- A line of a text stands at the start of one. -/
theorem exists_of_mem_split (h : line ∈ Text.split '\n' t) :
    ∃ u rest, t = u ++ (line ++ rest) ∧ EndsLine u := by
  obtain ⟨front, back, hsplit⟩ := List.append_of_mem h
  have htail : ∃ rest, Text.join ['\n'] (line :: back) = line ++ rest := by
    cases back with
    | nil => exact ⟨[], by simp [Text.join, List.intercalate]⟩
    | cons next back => exact ⟨_, Text.join_cons_cons '\n' line next back⟩
  obtain ⟨rest, htail⟩ := htail
  rw [← Text.join_split '\n' t, hsplit]
  by_cases hfront : front = []
  · exact ⟨[], rest, by rw [hfront, List.nil_append, htail]; rfl, .inl rfl⟩
  · refine ⟨Text.join ['\n'] front ++ ['\n'], rest, ?_, Text.endsLine_newline⟩
    rw [Text.join_append '\n' hfront (by simp), htail]
    simp

/-- A package is found in an importmap if one of the lines pins it. -/
theorem occursIn_pinLine (hlines : ∀ line ∈ Text.split '\n' t, IsMapLine line)
    (hp : ∀ c ∈ p, isQuote c = false) :
    (pinLine p).occursIn t = true ↔ ∃ line ∈ Text.split '\n' t, Pins p line := by
  constructor
  · intro h
    obtain ⟨u, s, rfl, -, hstarts⟩ := exists_startsAt h
    obtain ⟨hbefore, hahead⟩ := startsAt_pinLine.1 hstarts
    have hu := endsLine_of_onNewLine hbefore
    rw [← Text.join_split '\n' s] at hahead
    obtain ⟨line, hline, hpins⟩ :=
      pins_of_ahead (fun line hline => hlines line (mem_split_of_endsLine hu hline)) hp hahead
    exact ⟨line, mem_split_of_endsLine hu hline, hpins⟩
  · rintro ⟨line, hline, hpins⟩
    obtain ⟨u, rest, rfl, hu⟩ := exists_of_mem_split hline
    have hahead := hpins.append rest
    refine occursIn_of_startsAt (startsAt_pinLine.2 ⟨onNewLine_lastAfter hu onNewLine_none, hahead⟩) ?_
    intro hnil
    rw [hnil] at hahead
    exact not_pinsAhead_of_blank (by simp) hahead

/-- Whether a package is pinned is read off the importmap. -/
theorem on_isPinned {project : Project} {disk : Disk} {k : Key}
    (hfile : disk.HoldsText project.importmap k t) :
    (project.isPinned package).on disk = (.ok ((pinLine package).occursIn t), disk) := by
  have hisFile : disk.isFile project.importmap = true := by
    obtain ⟨x, hlocate⟩ := hfile
    exact Disk.isFile_iff.2 ⟨k, x, _, hlocate⟩
  unfold isPinned
  rw [Edit.on_bind_ok (Edit.on_ask _), hisFile]
  show (Edit.readText project.importmap >>= _ : Edit Bool).on disk = _
  rw [Edit.on_bind_ok (Edit.on_readText hfile)]
  rfl

end Project

-- ============================================================================= pins

/-- A view refers to a package just if it has the package between quotation marks, and a script
just if it has it so behind a keyword; an import of several things adds nothing to that. A package
without quotation marks is pinned by an importmap just if one of the lines pins it, and each line
pins one package only. -/
theorem pin_used_exactly (package : Text) :
    (∃ scripts views, Usage.pin package = [scripts, views]
      ∧ (∀ t, (∃ pattern ∈ views.patterns, pattern.occursIn t)
          ↔ ∃ m, (∃ o c, isQuote o ∧ isQuote c ∧ m = o :: package ++ [c]) ∧ m <:+: t)
      ∧ (∀ t, (∃ pattern ∈ scripts.patterns, pattern.occursIn t)
          ↔ ∃ u m, t = u ++ m ∧ ∃ keyword ∈ ["from".toList, "import".toList], Keyed keyword package m)
      ∧ ∀ t, (∃ pattern ∈ scripts.patterns, pattern.occursIn t)
          ↔ ∃ pattern ∈ scripts.patterns.take 2, pattern.occursIn t)
    ∧ (∀ (project : Project) disk k t, disk.HoldsText project.importmap k t →
        (∀ line ∈ Text.split '\n' t, Project.IsMapLine line) → (∀ c ∈ package, isQuote c = false) →
          ∃ pinned, (project.isPinned package).on disk = (.ok pinned, disk)
            ∧ (pinned = true ↔ ∃ line ∈ Text.split '\n' t, Project.Pins package line))
    ∧ ∀ line other, Project.Pins package line → Project.Pins other line → package = other := by
  refine ⟨⟨_, _, rfl, fun t => ?_, fun t => ?_, fun t => Usage.occursIn_scripts⟩,
    fun project disk k t hfile hlines hp => ?_, fun line other hpins hpins' => hpins.unique hpins'⟩
  · rw [← Usage.occursIn_quoted]
    exact ⟨fun ⟨pattern, hmem, hoccurs⟩ => List.mem_singleton.1 hmem ▸ hoccurs,
      fun hoccurs => ⟨_, List.mem_singleton_self _, hoccurs⟩⟩
  · exact Usage.occursIn_scripts.trans Usage.occursIn_behindKeyword
  · exact ⟨_, Project.on_isPinned hfile, Project.occursIn_pinLine hlines hp⟩

/-- An importmap with pins and a comment. -/
def importmapText : Text :=
  "pin \"application\"\npin \"chart.js\", to: \"https://cdn/chart.js\"\n# pin \"alpinejs\"\n"

def mapped : Disk where
  entries :=
    [ (["config".toList], .folder),
      (["config".toList, "importmap.rb".toList], .file false (.text importmapText)) ]
  sorted := by decide

theorem pin_used_exactly_mapped :
    ∃ pinned, (Project.isPinned ⟨"/"⟩ "chart.js").on mapped = (.ok pinned, mapped) ∧ pinned = true := by
  have hpin : ∀ q rest : Text, (∀ c ∈ q, isQuote c = false) →
      Project.Pins q ("pin".toList ++ (" ".toList ++ '"' :: (q ++ '"' :: rest))) := fun q rest hq =>
    ⟨hq, [], _, rfl, by simp, " ", '"', '"', rest, rfl, by decide, by decide, rfl, rfl⟩
  have hchart : Project.Pins "chart.js" "pin \"chart.js\", to: \"https://cdn/chart.js\"" :=
    hpin "chart.js" ", to: \"https://cdn/chart.js\"" (by decide)
  have hsplit : Text.split '\n' importmapText = ["pin \"application\"".toList,
      "pin \"chart.js\", to: \"https://cdn/chart.js\"".toList, "# pin \"alpinejs\"".toList, []] := by
    decide +kernel
  have hlines : ∀ line ∈ Text.split '\n' importmapText, Project.IsMapLine line := by
    rw [hsplit]
    simp only [List.forall_mem_cons]
    exact ⟨.pin (hpin "application" [] (by decide)), .pin hchart,
      .comment (by simp : ∀ c ∈ ([] : Text), Text.isBlank c), .blank (by simp), by simp⟩
  obtain ⟨pinned, hruns, hiff⟩ := (pin_used_exactly "chart.js").2.1 ⟨"/"⟩ mapped
    ["config".toList, "importmap.rb".toList] importmapText ⟨false, rfl⟩ hlines (by decide)
  exact ⟨pinned, hruns, hiff.2 ⟨_, by rw [hsplit]; exact .tail _ (.head _), hchart⟩⟩

example : ((Project.isPinned ⟨"/"⟩ "chart").on mapped).1.toOption = some false := by decide +kernel

end SiteScaffold

/-
When a Stimulus controller counts as used. The tokens of a quoted value are what stands between
its white space (`mem_tokens_iff`), and a value names a controller if one of them is the name or
the identifier (`Names`). The patterns say the same by what may stand in front of the token and
behind it (`matches_tokensWith`), so a view refers to a controller just if it has an attribute or a
hash with such a value in it (`occursIn_inAttribute`, `occursIn_inHelper`).

The name can be read off either spelling of it (`Spells.unique`). So what spells another
controller is never taken for this one, be its name a part of this one's or the reverse.
-/
import SiteScaffold.Proofs.Pattern.Lines
import SiteScaffold.Proofs.Usage.Search

namespace SiteScaffold.Usage

open Pattern
open Name (IsNormal)

variable {name other token value t s m rest : Text} {before : Option Char}

-- =========================================================================== tokens

/-- The tokens of a value. -/
def tokens (value : Text) : List Text := (value.splitOnP Text.isBlank).filter (· ≠ [])

/-- A text that starts behind a separator goes on behind one. -/
theorem last_append_cons {p : Char → Bool} {a front : Text} {c : Char} (hc : p c) (ha : ∀ d ∈ a.getLast?, p d) :
    ∀ d ∈ (front ++ c :: a).getLast?, p d := by
  intro d hd
  rw [List.getLast?_append, List.getLast?_cons] at hd
  cases hlast : a.getLast? with
  | none =>
      rw [hlast] at hd
      cases hd
      exact hc
  | some e =>
      rw [hlast] at hd
      cases hd
      exact ha _ hlast

/-- What a value is split into stands between separators, or between them and its ends. -/
theorem cut_of_mem_splitOnP {p : Char → Bool} {piece : Text} (h : piece ∈ value.splitOnP p) :
    (∀ c ∈ piece, p c = false) ∧ ∃ a b, value = a ++ (piece ++ b)
      ∧ (∀ c ∈ a.getLast?, p c) ∧ ∀ c ∈ b.head?, p c := by
  induction hlength : value.length using Nat.strong_induction_on generalizing value with
  | _ n ih =>
      have hsplit : value = value.takeWhile (!p ·) ++ value.dropWhile (!p ·) :=
        List.takeWhile_append_dropWhile.symm
      have hfirst : ∀ c ∈ value.takeWhile (!p ·), p c = false := fun c hc => by
        simpa using List.all_eq_true.1 List.all_takeWhile c hc
      cases hback : value.dropWhile (!p ·) with
      | nil =>
          rw [hback, List.append_nil] at hsplit
          rw [← hsplit] at hfirst
          rw [List.splitOnP_eq_singleton hfirst, List.mem_singleton] at h
          subst h
          exact ⟨hfirst, [], [], by simp, by simp, by simp⟩
      | cons c back =>
          have hc : p c = true := by
            have hhead := List.head?_dropWhile_not (!p ·) value
            rw [hback] at hhead
            simpa using hhead
          rw [hback] at hsplit
          rw [hsplit, List.splitOnP_append_cons_of_forall_mem hfirst c hc] at h
          rcases List.mem_cons.1 h with rfl | h
          · exact ⟨hfirst, [], c :: back, hsplit, by simp, by simpa using hc⟩
          · have hlt : back.length < n := by
              rw [← hlength, hsplit]
              simp
              omega
            obtain ⟨hpiece, a, b, rfl, ha, hb⟩ := ih _ hlt h rfl
            exact ⟨hpiece, value.takeWhile (!p ·) ++ c :: a, b, by simpa using hsplit, last_append_cons hc ha, hb⟩

theorem mem_splitOnP_of_cut {p : Char → Bool} {piece a b : Text} (hpiece : ∀ c ∈ piece, p c = false)
    (ha : ∀ c ∈ a.getLast?, p c) (hb : ∀ c ∈ b.head?, p c) : piece ∈ (a ++ (piece ++ b)).splitOnP p := by
  have hfront : piece ∈ (piece ++ b).splitOnP p := by
    cases b with
    | nil =>
        rw [List.append_nil, List.splitOnP_eq_singleton hpiece]
        exact List.mem_singleton_self _
    | cons c b =>
        rw [List.splitOnP_append_cons_of_forall_mem hpiece c (hb c rfl)]
        exact List.mem_cons_self ..
  rcases List.eq_nil_or_concat' a with rfl | ⟨a, c, rfl⟩
  · exact hfront
  · rw [List.append_assoc, List.singleton_append, List.splitOnP_append_cons _ _ (ha c (by simp))]
    exact List.mem_append_right _ hfront

theorem mem_splitOnP_iff {p : Char → Bool} {piece : Text} : piece ∈ value.splitOnP p ↔
    (∀ c ∈ piece, p c = false) ∧ ∃ a b, value = a ++ (piece ++ b)
      ∧ (∀ c ∈ a.getLast?, p c) ∧ ∀ c ∈ b.head?, p c := by
  refine ⟨cut_of_mem_splitOnP, ?_⟩
  rintro ⟨hpiece, a, b, rfl, ha, hb⟩
  exact mem_splitOnP_of_cut hpiece ha hb

/-- A token is a text without white space, with white space or an end of the value on either
side. -/
theorem mem_tokens_iff : token ∈ tokens value ↔ token ≠ [] ∧ (∀ c ∈ token, Text.isBlank c = false)
    ∧ ∃ a b, value = a ++ (token ++ b) ∧ (∀ c ∈ a.getLast?, Text.isBlank c)
      ∧ ∀ c ∈ b.head?, Text.isBlank c := by
  rw [tokens, List.mem_filter, mem_splitOnP_iff, decide_eq_true_eq, and_comm]

-- ============================================================================ names

/-- Whether a text spells a controller: by its name or by its identifier. -/
def Spells (name token : Text) : Prop := token = name ∨ token = Name.stimulusIdentifier name

/-- Whether a value names a controller: one of its tokens spells it. -/
def Names (name value : Text) : Prop := ∃ token ∈ tokens value, Spells name token

theorem isNameChar_or_dash (hname : IsNormal name) (h : Spells name token) :
    ∀ c ∈ token, Name.isNameChar c ∨ c = '-' := by
  intro c hc
  rcases h with rfl | rfl
  · exact .inl (hname.isNameChar c hc)
  · obtain ⟨d, hd, rfl⟩ := List.mem_map.1 hc
    split
    · exact .inr rfl
    · exact .inl (hname.isNameChar d hd)

theorem Spells.not_isBlank (hname : IsNormal name) (h : Spells name token) :
    ∀ c ∈ token, Text.isBlank c = false := by
  intro c hc
  rcases isNameChar_or_dash hname h c hc with hc | rfl
  · exact Name.not_isBlank_of_isNameChar hc
  · decide

theorem Spells.not_isQuote (hname : IsNormal name) (h : Spells name token) :
    ∀ c ∈ token, isQuote c = false := by
  intro c hc
  rcases isNameChar_or_dash hname h c hc with hc | rfl
  · exact Name.not_isQuote_of_isNameChar hc
  · decide

theorem Spells.ne_nil (hne : name ≠ []) (h : Spells name token) : token ≠ [] := by
  rcases h with rfl | rfl
  · exact hne
  · simpa [Name.stimulusIdentifier] using hne

/-- The name again, from either spelling. -/
theorem Spells.undashed (hname : IsNormal name) (h : Spells name token) :
    token.map (fun c => if c = '-' then '_' else c) = name := by
  have hdash : ∀ c ∈ name, c ≠ '-' := fun c hc => Name.ne_of_isNameChar (hname.isNameChar c hc) (by decide)
  rcases h with rfl | rfl
  · exact (List.map_congr_left fun c hc => if_neg (hdash c hc)).trans (List.map_id' token)
  · rw [Name.stimulusIdentifier, List.map_map]
    refine (List.map_congr_left fun c hc => ?_).trans (List.map_id' name)
    show (if (if c = '_' then '-' else c) = '-' then '_' else if c = '_' then '-' else c) = c
    by_cases hunder : c = '_'
    · rw [if_pos hunder, if_pos rfl, hunder]
    · rw [if_neg hunder, if_neg (hdash c hc)]

/-- One text spells one controller. -/
theorem Spells.unique (hname : IsNormal name) (hother : IsNormal other) (h : Spells name token)
    (h' : Spells other token) : other = name :=
  (h'.undashed hother).symm.trans (h.undashed hname)

-- ========================================================================= patterns

/-- Whether a text is a value between quotation marks, with none of them in it. -/
def IsQuoted (value s : Text) : Prop :=
  ∃ q q', isQuote q ∧ isQuote q' ∧ s = q :: (value ++ [q']) ∧ ∀ c ∈ value, isQuote c = false

theorem matches_spelling : (literal name ||| literal (Name.stimulusIdentifier name)).Matches before t rest
    ↔ Spells name t := by
  rw [matches_or, matches_literal, matches_literal]
  rfl

/-- What may stand in front of a token: a text that ends in white space, if there is any. -/
theorem matches_ahead : (optional (many unquoted ++ one Text.isBlank)).Matches before t rest ↔
    (∀ c ∈ t, isQuote c = false) ∧ ∀ c ∈ t.getLast?, Text.isBlank c := by
  simp only [matches_optional, matches_append, matches_many, matches_one, unquoted, Bool.not_eq_true']
  constructor
  · rintro (⟨u, _, rfl, hu, c, hc, rfl⟩ | rfl)
    · refine ⟨fun d hd => ?_, by simpa using hc⟩
      rcases List.mem_append.1 hd with hd | hd
      · exact hu d hd
      · rw [List.mem_singleton.1 hd]
        exact Text.not_isQuote_of_isBlank hc
    · simp
  · rintro ⟨ht, hlast⟩
    rcases List.eq_nil_or_concat' t with rfl | ⟨u, c, rfl⟩
    · exact .inr rfl
    · exact .inl ⟨u, [c], rfl, fun d hd => ht d (List.mem_append_left _ hd), c, hlast c (by simp), rfl⟩

/-- What may stand behind a token: a text that starts with white space, if there is any. -/
theorem matches_behind : (optional (one Text.isBlank ++ many unquoted)).Matches before t rest ↔
    (∀ c ∈ t, isQuote c = false) ∧ ∀ c ∈ t.head?, Text.isBlank c := by
  simp only [matches_optional, matches_append, matches_many, matches_one, unquoted, Bool.not_eq_true']
  constructor
  · rintro (⟨_, u, rfl, ⟨c, hc, rfl⟩, hu⟩ | rfl)
    · refine ⟨fun d hd => ?_, by simpa using hc⟩
      rcases List.mem_cons.1 hd with rfl | hd
      · exact Text.not_isQuote_of_isBlank hc
      · exact hu d hd
    · simp
  · rintro ⟨ht, hfirst⟩
    cases t with
    | nil => exact .inr rfl
    | cons c u =>
        exact .inl ⟨[c], u, rfl, ⟨c, hfirst c rfl, rfl⟩, fun d hd => ht d (List.mem_cons_of_mem _ hd)⟩

/-- The pattern for a quoted list takes the quoted values that name the controller. -/
theorem matches_tokensWith (hname : IsNormal name) (hne : name ≠ []) :
    (tokensWith name).Matches before t rest ↔ ∃ value, IsQuoted value t ∧ Names name value := by
  unfold tokensWith
  constructor
  · intro h
    obtain ⟨_, _, rfl, h, hclose⟩ := matches_append.1 h
    obtain ⟨_, b, rfl, h, hb⟩ := matches_append.1 h
    obtain ⟨_, token, rfl, h, htoken⟩ := matches_append.1 h
    obtain ⟨_, a, rfl, hopen, ha⟩ := matches_append.1 h
    obtain ⟨q, hq, rfl⟩ := matches_quote.1 hopen
    obtain ⟨q', hq', rfl⟩ := matches_quote.1 hclose
    have hspells := matches_spelling.1 htoken
    obtain ⟨hafree, halast⟩ := matches_ahead.1 ha
    obtain ⟨hbfree, hbfirst⟩ := matches_behind.1 hb
    refine ⟨a ++ (token ++ b), ⟨q, q', hq, hq', by simp, fun c hc => ?_⟩, token, ?_, hspells⟩
    · simp only [List.mem_append] at hc
      rcases hc with hc | hc | hc
      · exact hafree c hc
      · exact hspells.not_isQuote hname c hc
      · exact hbfree c hc
    · exact mem_tokens_iff.2 ⟨hspells.ne_nil hne, hspells.not_isBlank hname, a, b, rfl, halast, hbfirst⟩
  · rintro ⟨value, ⟨q, q', hq, hq', rfl, hfree⟩, token, htoken, hspells⟩
    obtain ⟨-, -, a, b, rfl, halast, hbfirst⟩ := mem_tokens_iff.1 htoken
    have htext : q :: (a ++ (token ++ b) ++ [q']) = [q] ++ a ++ token ++ b ++ [q'] := by simp
    rw [htext]
    refine matches_append.2 ⟨_, _, rfl, ?_, matches_quote.2 ⟨q', hq', rfl⟩⟩
    refine matches_append.2 ⟨_, _, rfl, ?_, matches_behind.2 ⟨fun c hc => hfree c (by simp [hc]), hbfirst⟩⟩
    refine matches_append.2 ⟨_, _, rfl, ?_, matches_spelling.2 hspells⟩
    exact matches_append.2 ⟨_, _, rfl, matches_quote.2 ⟨q, hq, rfl⟩,
      matches_ahead.2 ⟨fun c hc => hfree c (by simp [hc]), halast⟩⟩

/-- An attribute with a value that names a controller. -/
inductive IsAttribute (name : Text) : Text → Prop
  | intro {value s : Text} (hquoted : IsQuoted value s) (hnames : Names name value) :
    IsAttribute name ("data-controller=" ++ s)

/-- A hash with a value that names a controller, and without a closing brace in it. -/
inductive IsHash (name : Text) : Text → Prop
  | intro {blanks inside blanks' value s back : Text} (hblanks : ∀ c ∈ blanks, Text.isBlank c)
    (hinside : '}' ∉ inside) (hblanks' : ∀ c ∈ blanks', Text.isBlank c) (hquoted : IsQuoted value s)
    (hnames : Names name value) (hback : '}' ∉ back) :
    IsHash name ("data:" ++ (blanks ++ ("\x7b" ++ (inside ++ ("controller:" ++ (blanks' ++ (s ++ (back ++ "\x7d"))))))))

theorem occursIn_inAttribute (hname : IsNormal name) (hne : name ≠ []) :
    (inAttribute name).occursIn t = true ↔ ∃ m, IsAttribute name m ∧ m <:+: t := by
  refine occursIn_iff_infix (fun {before u rest} => ?_) (by rintro ⟨⟩)
  unfold inAttribute
  rw [matches_append]
  constructor
  · rintro ⟨_, s, rfl, hlead, hs⟩
    obtain rfl := matches_literal.1 hlead
    obtain ⟨value, hquoted, hnames⟩ := (matches_tokensWith hname hne).1 hs
    exact .intro hquoted hnames
  · rintro ⟨hquoted, hnames⟩
    exact ⟨_, _, rfl, matches_literal.2 rfl, (matches_tokensWith hname hne).2 ⟨_, hquoted, hnames⟩⟩

theorem occursIn_inHelper (hname : IsNormal name) (hne : name ≠ []) :
    (inHelper name).occursIn t = true ↔ ∃ m, IsHash name m ∧ m <:+: t := by
  refine occursIn_iff_infix (fun {before u rest} => ?_) (by rintro ⟨⟩)
  unfold inHelper
  constructor
  · intro h
    obtain ⟨_, _, rfl, h, hclose⟩ := matches_append.1 h
    obtain ⟨_, back, rfl, h, hback⟩ := matches_append.1 h
    obtain ⟨_, s, rfl, h, hs⟩ := matches_append.1 h
    obtain ⟨_, blanks', rfl, h, hblanks'⟩ := matches_append.1 h
    obtain ⟨_, _, rfl, h, hkey⟩ := matches_append.1 h
    obtain ⟨_, inside, rfl, h, hinside⟩ := matches_append.1 h
    obtain ⟨_, _, rfl, h, hopen⟩ := matches_append.1 h
    obtain ⟨_, blanks, rfl, hdata, hblanks⟩ := matches_append.1 h
    obtain rfl := matches_literal.1 hdata
    obtain rfl := matches_literal.1 hopen
    obtain rfl := matches_literal.1 hkey
    obtain rfl := matches_literal.1 hclose
    obtain ⟨value, hquoted, hnames⟩ := (matches_tokensWith hname hne).1 hs
    have hbrace : ∀ u : Text, (∀ c ∈ u, decide (c ≠ '}') = true) → '}' ∉ u := fun u hu hmem =>
      of_decide_eq_true (hu _ hmem) rfl
    simp only [List.append_assoc]
    exact .intro (matches_slack.1 hblanks) (hbrace _ (matches_many.1 hinside)) (matches_slack.1 hblanks')
      hquoted hnames (hbrace _ (matches_many.1 hback))
  · rintro ⟨hblanks, hinside, hblanks', hquoted, hnames, hback⟩
    have hbrace : ∀ u : Text, '}' ∉ u → ∀ c ∈ u, decide (c ≠ '}') = true := fun u hu c hc =>
      decide_eq_true (ne_of_mem_of_not_mem hc hu)
    simp only [← List.append_assoc]
    refine matches_append.2 ⟨_, _, rfl, ?_, matches_literal.2 rfl⟩
    refine matches_append.2 ⟨_, _, rfl, ?_, matches_many.2 (hbrace _ hback)⟩
    refine matches_append.2 ⟨_, _, rfl, ?_, (matches_tokensWith hname hne).2 ⟨_, hquoted, hnames⟩⟩
    refine matches_append.2 ⟨_, _, rfl, ?_, matches_slack.2 hblanks'⟩
    refine matches_append.2 ⟨_, _, rfl, ?_, matches_literal.2 rfl⟩
    refine matches_append.2 ⟨_, _, rfl, ?_, matches_many.2 (hbrace _ hinside)⟩
    refine matches_append.2 ⟨_, _, rfl, ?_, matches_literal.2 rfl⟩
    exact matches_append.2 ⟨_, _, rfl, matches_literal.2 rfl, matches_slack.2 hblanks⟩

-- ============================================================================ views

/-- Whether a text uses a controller. -/
def Uses (name t : Text) : Prop := ∃ m, (IsAttribute name m ∨ IsHash name m) ∧ m <:+: t

/-- Whether the values that a text gives to controllers are made of the spellings of other
controllers. -/
def OthersOnly (name t : Text) : Prop :=
  ∀ lead value s, lead = "data-controller=".toList
      ∨ (∃ blanks, (∀ c ∈ blanks, Text.isBlank c) ∧ lead = "controller:" ++ blanks) →
    IsQuoted value s → lead ++ s <:+: t →
      ∀ token ∈ tokens value, ∃ other, IsNormal other ∧ other ≠ name ∧ Spells other token

/-- Where a controller may be used. -/
def views (name : Text) : Target := ⟨"app/views", Project.viewSuffix, [inAttribute name, inHelper name]⟩

/-- Whether a view with a text stands below the folder of views. -/
def IsView (root : Text) (disk : Disk) (names : Key) (content : Text) : Prop :=
  ∃ top x, disk.locate true (Path.join root "app/views") = .ok (.entry top .folder)
    ∧ disk.lookup (top ++ names) = some (.file x (.text content))
    ∧ Text.endsWith (Path.under (Path.join root "app/views") names) Project.viewSuffix

theorem occursIn_any_iff (hname : IsNormal name) (hne : name ≠ []) :
    (∃ pattern ∈ (views name).patterns, pattern.occursIn t) ↔ Uses name t := by
  constructor
  · rintro ⟨pattern, hmem, hoccurs⟩
    rcases List.mem_cons.1 hmem with rfl | hmem
    · obtain ⟨m, hattribute, hm⟩ := (occursIn_inAttribute hname hne).1 hoccurs
      exact ⟨m, .inl hattribute, hm⟩
    · obtain rfl := List.mem_singleton.1 hmem
      obtain ⟨m, hhash, hm⟩ := (occursIn_inHelper hname hne).1 hoccurs
      exact ⟨m, .inr hhash, hm⟩
  · rintro ⟨m, hattribute | hhash, hm⟩
    · exact ⟨inAttribute name, .head _, (occursIn_inAttribute hname hne).2 ⟨m, hattribute, hm⟩⟩
    · exact ⟨inHelper name, .tail _ (.head _), (occursIn_inHelper hname hne).2 ⟨m, hhash, hm⟩⟩

theorem reports_views_iff (hname : IsNormal name) (hne : name ≠ []) {root : Text} {disk : Disk}
    {names : Key} : (views name).Reports root disk names
      ↔ ∃ content, IsView root disk names content ∧ Uses name content := by
  constructor
  · rintro ⟨top, x, content, hlocate, hlookup, hsuffix, hpattern⟩
    exact ⟨content, ⟨top, x, hlocate, hlookup, hsuffix⟩, (occursIn_any_iff hname hne).1 hpattern⟩
  · rintro ⟨content, ⟨top, x, hlocate, hlookup, hsuffix⟩, huses⟩
    exact ⟨top, x, content, hlocate, hlookup, hsuffix, (occursIn_any_iff hname hne).2 huses⟩

/-- What spells a controller is a value that names it. -/
theorem Spells.names (hname : IsNormal name) (hne : name ≠ []) (h : Spells name token) : Names name token :=
  ⟨token, mem_tokens_iff.2 ⟨h.ne_nil hne, h.not_isBlank hname, [], [], by simp, by simp, by simp⟩, h⟩

/-- The attribute by which a controller is attached. -/
theorem isAttribute_identifier (hname : IsNormal name) (hne : name ≠ []) :
    IsAttribute name ("data-controller=\"" ++ (Name.stimulusIdentifier name ++ "\"")) := by
  have hspells : Spells name (Name.stimulusIdentifier name) := .inr rfl
  have hcut : ("data-controller=\"" : Text) = "data-controller=" ++ ['"'] := by decide +kernel
  rw [hcut, List.append_assoc]
  exact .intro ⟨'"', '"', rfl, rfl, rfl, hspells.not_isQuote hname⟩ (hspells.names hname hne)

/-- A value of others does not name the controller. -/
theorem not_names_of_others (hname : IsNormal name)
    (hothers : ∀ token ∈ tokens value, ∃ other, IsNormal other ∧ other ≠ name ∧ Spells other token) :
    ¬ Names name value := by
  rintro ⟨token, htoken, hspells⟩
  obtain ⟨other, hother, hne, hspells'⟩ := hothers token htoken
  exact hne (hspells.unique hname hother hspells')

theorem OthersOnly.not_uses (hname : IsNormal name) (h : OthersOnly name t) : ¬ Uses name t := by
  rintro ⟨m, hattribute | hhash, hm⟩
  · obtain ⟨hquoted, hnames⟩ := hattribute
    exact not_names_of_others hname (h _ _ _ (.inl rfl) hquoted hm) hnames
  · cases hhash with
    | @intro blanks inside blanks' value s back hblanks hinside hblanks' hquoted hnames hback =>
        refine not_names_of_others hname (h _ _ _ (.inr ⟨blanks', hblanks', rfl⟩) hquoted ?_) hnames
        -- the value with its key is a part of the hash
        refine List.IsInfix.trans
          ⟨"data:" ++ (blanks ++ ("\x7b" ++ inside)), back ++ "\x7d", ?_⟩ hm
        simp only [List.append_assoc]

/-- A view refers to a controller just if it has the attribute or the hash for it, in which one of
the tokens of the value is the name or the identifier; a search reports just these views. So the
attribute that is shown when a controller is added is always found, and what is made for other
controllers never is, even if their names have this one in them. -/
theorem stimulus_used_by_tokens (hname : IsNormal name) (hne : name ≠ []) :
    (∀ t, (inAttribute name).occursIn t = true ↔ ∃ m, IsAttribute name m ∧ m <:+: t)
    ∧ (∀ t, (inHelper name).occursIn t = true ↔ ∃ m, IsHash name m ∧ m <:+: t)
    ∧ (∀ root disk, disk.Closed → (views name).Walkable root disk → ∃ files : List Key,
        (find root (stimulus name)).on disk
            = (.ok (files.map (Path.under (Path.join root "app/views"))), disk)
          ∧ ∀ names, names ∈ files ↔ ∃ content, IsView root disk names content ∧ Uses name content)
    ∧ (∀ t, ("data-controller=\"" ++ (Name.stimulusIdentifier name ++ "\"") : Text) <:+: t → Uses name t)
    ∧ ∀ t, OthersOnly name t → ¬ Uses name t := by
  refine ⟨fun t => occursIn_inAttribute hname hne, fun t => occursIn_inHelper hname hne, ?_, ?_,
    fun t hothers => hothers.not_uses hname⟩
  · intro root disk hclosed hwalk
    refine ⟨(views name).reported root disk, on_find_one hclosed hwalk, fun names => ?_⟩
    rw [mem_reported_iff hclosed hwalk, reports_views_iff hname hne]
  · exact fun t ht => ⟨_, .inl (isAttribute_identifier hname hne), ht⟩

/-- A project with two controllers in its views, the name of one in that of the other. -/
def attached : Disk where
  entries :=
    [ (["app".toList], .folder),
      (["app".toList, "views".toList], .folder),
      (["app".toList, "views".toList, "item.html.erb".toList],
        .file false (.text "<li data-controller=\"todo-list-item\">")),
      (["app".toList, "views".toList, "list.html.erb".toList],
        .file false (.text "<ul data-controller=\"todo-list\">")) ]
  sorted := by decide

theorem stimulus_used_by_tokens_attached :
    ∃ files : List Key,
      (find "/" (stimulus "todo_list")).on attached
          = (.ok (files.map (Path.under (Path.join "/" "app/views"))), attached)
        ∧ ["list.html.erb".toList] ∈ files := by
  have hname : IsNormal "todo_list" := ⟨"Todo List", by decide⟩
  have hused := stimulus_used_by_tokens hname (by decide)
  have hclosed : attached.Closed := Disk.closed_of_forall_mem (by decide +kernel)
  have hwalk : (views "todo_list").Walkable "/" attached :=
    walkable_of_below ["app".toList, "views".toList] rfl (by decide +kernel)
  obtain ⟨files, hfind, hmem⟩ := hused.2.2.1 "/" attached hclosed hwalk
  refine ⟨files, hfind, (hmem _).2 ⟨_, ⟨["app".toList, "views".toList], false, rfl, rfl, rfl⟩, ?_⟩⟩
  exact hused.2.2.2.1 _ ⟨"<ul ".toList, ">".toList, rfl⟩

example : ((find "/" (stimulus "todo_list")).on attached).1.toOption
    = some ["/app/views/list.html.erb".toList] := by
  decide +kernel

end SiteScaffold.Usage

/-
Searching a text that is made of whole lines. Texts that stand as whole lines
between whole lines can be put in and taken out without making or breaking a
match of a pattern that does not look beyond its lines (`LineBased`): a search
that found nothing in the text without them finds nothing outside of them
(`Clear.around`), so nothing at all if they hold no match (`Clear.insert`).

A pattern with white space in it can look beyond the line: a keyword at the end
of a line may be followed by its quoted argument on a later one. It does not if
what comes next is no quotation mark (`Unquoted`), and that is how the texts are
kept apart (`Keyed.within`).
-/
import SiteScaffold.Proofs.Pattern.Pieces
import SiteScaffold.Proofs.Text.Class
import SiteScaffold.Proofs.Text.Lines

namespace SiteScaffold.Pattern

open Text (EndsLine)

variable {p q : Pattern} {before before' : Option Char} {a b m s t u rest rest' : Text}

-- ============================================================ starts of lines

/-- Whether a line starts right after the character. -/
def OnNewLine (before : Option Char) : Prop := before.all (· = '\n')

theorem onNewLine_none : OnNewLine none := rfl

theorem onNewLine_newline : OnNewLine (some '\n') := rfl

theorem not_onNewLine {c : Char} (hc : c ≠ '\n') : ¬ OnNewLine (some c) := by
  simp [OnNewLine, hc]

/-- What has a line to itself is between spaces and tabs there. -/
theorem matches_alone : (lineStart ++ spacing ++ p ++ spacing ++ newline).Matches before t rest ↔
    OnNewLine before ∧ ∃ a m b e, t = a ++ (m ++ (b ++ e)) ∧ (∀ c ∈ a, isSpacing c)
      ∧ p.Matches (lastAfter before a) m (b ++ (e ++ rest)) ∧ (∀ c ∈ b, isSpacing c) ∧ newline.Matches none e [] := by
  constructor
  · intro h
    obtain ⟨_, e, rfl, h, he⟩ := matches_append.1 h
    obtain ⟨_, b, rfl, h, hb⟩ := matches_append.1 h
    obtain ⟨_, m, rfl, h, hm⟩ := matches_append.1 h
    obtain ⟨_, a, rfl, hstart, ha⟩ := matches_append.1 h
    obtain ⟨rfl, hbefore⟩ := matches_lineStart.1 hstart
    exact ⟨hbefore, a, m, b, e, by simp, matches_spacing.1 ha, hm, matches_spacing.1 hb,
      matches_newline.2 (matches_newline.1 he)⟩
  · rintro ⟨hbefore, a, m, b, e, rfl, ha, hm, hb, he⟩
    have htext : a ++ (m ++ (b ++ e)) = [] ++ a ++ m ++ b ++ e := by simp
    rw [htext]
    refine matches_append.2 ⟨_, _, rfl, ?_, matches_newline.2 (matches_newline.1 he)⟩
    refine matches_append.2 ⟨_, _, rfl, ?_, matches_spacing.2 hb⟩
    refine matches_append.2 ⟨_, _, rfl, ?_, hm⟩
    exact matches_append.2 ⟨_, _, rfl, matches_lineStart.2 ⟨rfl, hbefore⟩, matches_spacing.2 ha⟩

theorem newline_notMem_spacing (h : ∀ c ∈ t, isSpacing c) : '\n' ∉ t := by
  intro hmem
  have hspacing := h _ hmem
  cases hspacing

theorem dropWhile_isSpacing_eq_iff {e : Text} (he : ∀ c ∈ e.head?, isSpacing c = false) :
    t.dropWhile isSpacing = e ↔ ∃ a, t = a ++ e ∧ ∀ c ∈ a, isSpacing c := by
  constructor
  · rintro rfl
    exact ⟨t.takeWhile isSpacing, List.takeWhile_append_dropWhile.symm,
      fun c hc => List.all_eq_true.1 List.all_takeWhile c hc⟩
  · rintro ⟨a, rfl, ha⟩
    rw [List.dropWhile_append_of_pos ha]
    cases e with
    | nil => rfl
    | cons c e => rw [List.dropWhile_cons_of_neg (by simpa using he c rfl)]

theorem exists_dropWhile_isSpacing (t : Text) :
    ∃ a e, t = a ++ e ∧ (∀ c ∈ a, isSpacing c) ∧ t.dropWhile isSpacing = e :=
  ⟨t.takeWhile isSpacing, _, List.takeWhile_append_dropWhile.symm,
    fun c hc => List.all_eq_true.1 List.all_takeWhile c hc, rfl⟩

/-- A line starts after whole lines. -/
theorem onNewLine_lastAfter (h : EndsLine t) (hbefore : OnNewLine before) :
    OnNewLine (lastAfter before t) := by
  rcases h with rfl | ⟨s, rfl⟩
  · exact hbefore
  · rw [lastAfter_concat]
    exact onNewLine_newline

theorem Prefers.startsAt (h : p.Prefers before t rest) : p.StartsAt before (t ++ rest) := by
  obtain ⟨hit, hmatch, htext⟩ := matchAt_of_prefers h
  obtain ⟨rest', hsplit, haccepts⟩ := matchAt_sound hmatch
  exact ⟨hit.text, rest', hsplit, _, haccepts⟩

theorem StartsAt.left (h : (p ++ q).StartsAt before t) : p.StartsAt before t := by
  obtain ⟨u, s, rfl, hmatches, -⟩ := startsAt_append.1 h
  exact ⟨u, s, rfl, hmatches⟩

-- ======================================================= where nothing starts

theorem clear_iff :
    p.Clear before t rest ↔
      ∀ u v, t = u ++ v → v ≠ [] → ¬ p.StartsAt (lastAfter before u) (v ++ rest) := by
  constructor
  · intro h u v htext hne
    exact matchAt_eq_none_iff_not_startsAt.1 (h u v htext hne)
  · intro h u v htext hne
    exact matchAt_eq_none_iff_not_startsAt.2 (h u v htext hne)

/-- Where one pattern starts nowhere, one that starts at fewer places does not
either. -/
theorem Clear.mono (h : p.Clear before t rest)
    (hstarts : ∀ before s, q.StartsAt before s → p.StartsAt before s) :
    q.Clear before t rest := by
  rw [clear_iff] at h ⊢
  intro u v htext hne hstart
  exact h u v htext hne (hstarts _ _ hstart)

/-- A pattern that starts on new lines only starts at the front of a line or
nowhere in it. -/
theorem clear_line (hp : ∀ before s, p.StartsAt before s → OnNewLine before) (hs : '\n' ∉ s)
    (h : ¬ p.StartsAt before (s ++ '\n' :: rest)) : p.Clear before (s ++ ['\n']) rest := by
  rw [clear_iff]
  intro u v htext hne hstart
  obtain ⟨r, rfl⟩ := EndsLine.of_append (s := u) (by rw [← htext]; exact Text.endsLine_newline) hne
  have hcut : s = u ++ r := by
    rw [← List.append_assoc] at htext
    exact (List.append_inj' htext rfl).1
  rcases List.eq_nil_or_concat' u with rfl | ⟨w, c, rfl⟩
  · rw [hcut] at h
    simp only [List.nil_append, List.append_assoc] at h hstart
    exact h hstart
  · have hc : c ≠ '\n' := by
      rintro rfl
      rw [hcut] at hs
      simp at hs
    have hnew := hp _ _ hstart
    rw [lastAfter_concat] at hnew
    exact not_onNewLine hc hnew

/-- What holds of a text from each item on, and of the text behind the items, holds from
the items on. -/
theorem next_flatMap {α : Type} {xs : List α} {f : α → Text} {P : Text → Prop}
    (hnext : ∀ x ∈ xs, ∀ t, P (f x ++ t)) (hrest : P rest) : P (xs.flatMap f ++ rest) := by
  cases xs with
  | nil => exact hrest
  | cons x xs =>
      rw [List.flatMap_cons, List.append_assoc]
      exact hnext x (List.mem_cons_self ..) _

/-- Texts in none of which anything starts, one after another. -/
theorem clear_flatMap {α : Type} {xs : List α} {f : α → Text} {P : Text → Prop}
    (hnext : ∀ x ∈ xs, ∀ t, P (f x ++ t)) (hrest : P rest)
    (h : ∀ x ∈ xs, ∀ before rest, P rest → p.Clear before (f x) rest) :
    p.Clear before (xs.flatMap f) rest := by
  induction xs generalizing before with
  | nil => exact clear_nil
  | cons x xs ih =>
      rw [List.flatMap_cons, clear_append]
      have hnext' := fun y hy => hnext y (List.mem_cons_of_mem _ hy)
      refine ⟨h x (List.mem_cons_self ..) _ _ (next_flatMap hnext' hrest), ?_⟩
      exact ih hnext' (fun y hy => h y (List.mem_cons_of_mem _ hy))

-- ============================================================ finding a match

/-- A match that starts somewhere is found. -/
theorem occursIn_of_startsAt (h : p.StartsAt (lastAfter none t) u) (hne : u ≠ []) :
    p.occursIn (t ++ u) = true := by
  cases hoccurs : p.occursIn (t ++ u) with
  | true => rfl
  | false =>
      have hclear := clear_iff.1 (occursIn_eq_false_iff.1 hoccurs) t u rfl hne
      rw [List.append_nil] at hclear
      exact absurd h hclear

/-- What is found starts somewhere. -/
theorem exists_startsAt (h : p.occursIn t = true) :
    ∃ u v, t = u ++ v ∧ v ≠ [] ∧ p.StartsAt (lastAfter none u) v := by
  refine Classical.byContradiction fun hnone => ?_
  have hclear : p.Clear none t [] := by
    refine clear_iff.2 fun u v htext hne hstart => hnone ⟨u, v, htext, hne, ?_⟩
    rw [List.append_nil] at hstart
    exact hstart
  rw [occursIn_eq_false_iff.2 hclear] at h
  cases h

/-- A pattern that takes texts of a certain shape, whatever stands around them, is found where
there is such a text. -/
theorem occursIn_iff_infix {Shape : Text → Prop} (hp : ∀ {before u rest}, p.Matches before u rest ↔ Shape u)
    (hne : ¬ Shape []) : p.occursIn t = true ↔ ∃ m, Shape m ∧ m <:+: t := by
  constructor
  · intro h
    obtain ⟨u, _, rfl, -, m, rest, rfl, hmatches⟩ := exists_startsAt h
    exact ⟨m, hp.1 hmatches, u, rest, List.append_assoc ..⟩
  · rintro ⟨m, hm, u, rest, rfl⟩
    rw [List.append_assoc]
    refine occursIn_of_startsAt ⟨m, rest, rfl, hp.2 hm⟩ fun hnil => hne ?_
    rw [← (List.append_eq_nil_iff.1 hnil).1]
    exact hm

/-- A text is found in which an item of a list holds a match. -/
theorem occursIn_of_mem {α : Type} {x : α} {xs : List α} {f : α → Text} (ha : EndsLine a)
    (hf : ∀ y ∈ xs, EndsLine (f y)) (hmem : x ∈ xs)
    (hx : ∀ before rest, OnNewLine before → ¬ p.Clear before (f x) rest) :
    p.occursIn (a ++ (xs.flatMap f ++ b)) = true := by
  obtain ⟨front, back, rfl⟩ := List.append_of_mem hmem
  cases hoccurs : p.occursIn (a ++ ((front ++ x :: back).flatMap f ++ b)) with
  | true => rfl
  | false =>
      have hclear := occursIn_eq_false_iff.1 hoccurs
      rw [List.flatMap_append, List.flatMap_cons] at hclear
      have hitem := (clear_append.1 (clear_append.1 (clear_append.1
        (clear_append.1 hclear).2).1).2).1
      have hfront : EndsLine (front.flatMap f) :=
        Text.endsLine_flatMap fun y hy => hf y (List.mem_append_left _ hy)
      refine absurd hitem (hx _ _ ?_)
      exact onNewLine_lastAfter hfront (onNewLine_lastAfter ha onNewLine_none)

/-- A text of which some items are matches and nothing else is: deleting takes out those
items and leaves the rest. -/
theorem delete_flatMap {α : Type} {xs : List α} {f : α → Text} {P : Text → Prop}
    (drop : α → Prop) [DecidablePred drop] (ha : EndsLine a) (hf : ∀ x ∈ xs, EndsLine (f x))
    (hnext : ∀ x ∈ xs, ∀ t, P (f x ++ t)) (hb : P b)
    (hhit : ∀ x ∈ xs, drop x → f x ≠ [] ∧ ∀ before rest, OnNewLine before → p.Prefers before (f x) rest)
    (hclear : ∀ x ∈ xs, ¬ drop x → ∀ before rest, P rest → p.Clear before (f x) rest)
    (hfront : p.Clear none a (xs.flatMap f ++ b))
    (hback : p.Clear (lastAfter none (a ++ xs.flatMap f)) b []) :
    p.delete (a ++ (xs.flatMap f ++ b)) = a ++ ((xs.filter (¬ drop ·)).flatMap f ++ b) := by
  have hbefore := onNewLine_lastAfter ha onNewLine_none
  rw [delete, rewrite, pieces_eq, piecesFrom_of_clear hfront, List.flatMap_append, List.flatMap_map]
  rw [lastAfter_append] at hback
  generalize lastAfter none a = before at hbefore hback
  have hplain : a.flatMap (fun c => (Piece.plain c).write fun _ => []) = a := List.flatMap_singleton' a
  rw [hplain]
  congr 1
  clear hfront hplain
  induction xs generalizing before with
  | nil =>
      have hpieces := piecesFrom_of_clear hback
      rw [List.append_nil] at hpieces
      show (p.piecesFrom 0 before b).flatMap _ = b
      rw [show lastAfter before (List.flatMap f []) = before from rfl] at hpieces
      rw [hpieces, piecesFrom, List.append_nil, List.flatMap_map]
      exact List.flatMap_singleton' b
  | cons x xs ih =>
      have hx := hf x (List.mem_cons_self ..)
      have hnew := onNewLine_lastAfter hx hbefore
      rw [List.flatMap_cons, lastAfter_append] at hback
      have hnext' := fun y hy => hnext y (List.mem_cons_of_mem _ hy)
      have hrest := ih (fun y hy => hf y (List.mem_cons_of_mem _ hy)) hnext'
        (fun y hy => hhit y (List.mem_cons_of_mem _ hy))
        (fun y hy => hclear y (List.mem_cons_of_mem _ hy)) _ hnew hback
      rw [List.flatMap_cons, List.append_assoc]
      by_cases hdrop : drop x
      · obtain ⟨hne, hprefers⟩ := hhit x (List.mem_cons_self ..) hdrop
        obtain ⟨hit, hmatch, htext⟩ := matchAt_of_prefers
          (hprefers before (xs.flatMap f ++ b) hbefore)
        rw [piecesFrom_of_hit hmatch htext hne, List.filter_cons_of_neg (by simpa using hdrop)]
        exact hrest
      · have hitem := hclear x (List.mem_cons_self ..) hdrop before _ (next_flatMap hnext' hb)
        rw [piecesFrom_of_clear hitem, List.flatMap_append, List.flatMap_map, hrest,
          List.filter_cons_of_pos (by simpa using hdrop), List.flatMap_cons, List.append_assoc]
        congr 1
        exact List.flatMap_singleton' (f x)

theorem hits_eq (p : Pattern) (t : Text) :
    p.hits t = (p.piecesFrom 0 none t).filterMap Piece.hit? := by
  rw [hits, pieces_eq]

/-- Where nothing starts there is no match. -/
theorem filterMap_piecesFrom (h : p.Clear before t rest) :
    (p.piecesFrom 0 before (t ++ rest)).filterMap Piece.hit?
      = (p.piecesFrom 0 (lastAfter before t) rest).filterMap Piece.hit? := by
  have hplain : (t.map Piece.plain).filterMap Piece.hit? = [] := by
    rw [List.filterMap_map]
    exact List.filterMap_eq_nil_iff.2 fun _ _ => rfl
  rw [piecesFrom_of_clear h, List.filterMap_append, hplain, List.nil_append]

/-- A text of which some items start with a match and nothing else is one has as many
matches as there are such items. -/
theorem length_hits_flatMap {α : Type} {xs : List α} {f : α → Text} (holds : α → Prop)
    [DecidablePred holds] (ha : EndsLine a) (hf : ∀ x ∈ xs, EndsLine (f x))
    (hhit : ∀ x ∈ xs, holds x → ∃ u v, f x = u ++ v ∧ u ≠ [] ∧ ∀ before rest, OnNewLine before →
      p.Prefers before u (v ++ rest) ∧ p.Clear (lastAfter before u) v rest)
    (hclear : ∀ x ∈ xs, ¬ holds x → ∀ before rest, p.Clear before (f x) rest)
    (hfront : p.Clear none a (xs.flatMap f ++ b))
    (hback : p.Clear (lastAfter none (a ++ xs.flatMap f)) b []) :
    (p.hits (a ++ (xs.flatMap f ++ b))).length = xs.countP (holds ·) := by
  have hbefore := onNewLine_lastAfter ha onNewLine_none
  rw [hits_eq, filterMap_piecesFrom hfront]
  rw [lastAfter_append] at hback
  generalize lastAfter none a = before at hbefore hback
  clear hfront
  induction xs generalizing before with
  | nil =>
      have hnone := filterMap_piecesFrom hback
      rw [List.append_nil, show lastAfter before (List.flatMap f []) = before from rfl] at hnone
      rw [List.flatMap_nil, List.nil_append, hnone]
      rfl
  | cons x xs ih =>
      have hnew := onNewLine_lastAfter (hf x (List.mem_cons_self ..)) hbefore
      rw [List.flatMap_cons, lastAfter_append] at hback
      have hrest := ih (fun y hy => hf y (List.mem_cons_of_mem _ hy))
        (fun y hy => hhit y (List.mem_cons_of_mem _ hy))
        (fun y hy => hclear y (List.mem_cons_of_mem _ hy)) _ hnew hback
      rw [List.flatMap_cons, List.append_assoc]
      by_cases hx : holds x
      · obtain ⟨u, v, heq, hne, hitem⟩ := hhit x (List.mem_cons_self ..) hx
        obtain ⟨hprefers, hclear⟩ := hitem before (xs.flatMap f ++ b) hbefore
        obtain ⟨hit, hmatch, htext⟩ := matchAt_of_prefers hprefers
        rw [heq, lastAfter_append] at hrest
        rw [heq, List.append_assoc, piecesFrom_of_hit hmatch htext hne, List.filterMap_cons]
        show (hit :: (p.piecesFrom 0 (lastAfter before u) (v ++ _)).filterMap Piece.hit?).length = _
        rw [List.length_cons, filterMap_piecesFrom hclear, hrest,
          List.countP_cons_of_pos (by simpa using hx)]
      · rw [filterMap_piecesFrom (hclear x (List.mem_cons_self ..) hx before _), hrest,
          List.countP_cons_of_neg (by simpa using hx)]

/-- What a search for the first match comes back with: nothing starts before the
match, and the match and its captures are read where it stands. -/
theorem accepts_of_first? {hit : Hit} (h : p.first? t = some (a, hit, b)) :
    t = a ++ (hit.text ++ b) ∧ p.Clear none a (hit.text ++ b)
      ∧ p.Accepts (lastAfter none a) hit.text b hit.kept := by
  rw [first?_eq] at h
  generalize none = before at h ⊢
  induction t generalizing a before with
  | nil => cases h
  | cons c t ih =>
      cases hhere : p.matchAt ⟨before, c :: t⟩ with
      | some found =>
          rw [firstFrom, hhere] at h
          obtain ⟨rfl, rfl, rfl⟩ : [] = a ∧ found = hit ∧ (c :: t).drop found.text.length = b := by
            simpa using h
          obtain ⟨r, htext, haccepts⟩ := matchAt_sound hhere
          rw [htext, List.drop_left]
          exact ⟨rfl, clear_nil, haccepts⟩
      | none =>
          rw [firstFrom, hhere] at h
          obtain ⟨⟨a, found, r⟩, htail, heq⟩ := Option.map_eq_some_iff.1 h
          obtain ⟨rfl, rfl, rfl⟩ : _ ∧ found = hit ∧ r = b := by simpa using heq
          obtain ⟨rfl, hclear, haccepts⟩ := ih (some c) htail
          exact ⟨rfl, clear_cons.2 ⟨hhere, hclear⟩, haccepts⟩

/-- The first match is the preferred way at the first place where the pattern starts, and its captures
are read there. -/
theorem first?_of_prefers (hclear : p.Clear none a (u ++ b)) (hprefers : p.Prefers (lastAfter none a) u b)
    (hne : u ≠ []) : ∃ hit, p.first? (a ++ (u ++ b)) = some (a, hit, b) ∧ hit.text = u
      ∧ p.Accepts (lastAfter none a) u b hit.kept := by
  obtain ⟨hit, hmatch, htext⟩ := matchAt_of_prefers hprefers
  have hfirst := first?_of_clear hclear hmatch htext hne
  obtain ⟨-, -, haccepts⟩ := accepts_of_first? hfirst
  rw [htext] at haccepts
  exact ⟨hit, hfirst, htext, haccepts⟩

theorem of_first?_eq_some {hit : Hit} (h : p.first? t = some (a, hit, b)) :
    t = a ++ (hit.text ++ b) ∧ p.Clear none a (hit.text ++ b)
      ∧ p.Matches (lastAfter none a) hit.text b := by
  obtain ⟨htext, hclear, haccepts⟩ := accepts_of_first? h
  exact ⟨htext, hclear, _, haccepts⟩

/-- The text ends where the first match of the pattern in it ends, whatever comes
after it. -/
def EndsFirst (p : Pattern) (a : Text) : Prop :=
  ∀ rest, ∃ front hit, p.first? (a ++ rest) = some (front, hit, rest) ∧ front ++ hit.text = a

/-- Where the first match of a pattern ends is settled by what stands up to there,
if its matches are what they are whatever follows and no match has another match
inside. -/
theorem endsFirst_of_first? {hit : Hit} (h : p.first? t = some (a, hit, b))
    (hne : ∀ before u rest, p.Matches before u rest → u ≠ [])
    (hprefers : ∀ before u rest rest', p.Matches before u rest → p.Prefers before u rest')
    (honce : ∀ before before' x u y rest rest', p.Matches before u rest →
      p.Matches before' (x ++ (u ++ y)) rest' → x = []) :
    p.EndsFirst (a ++ hit.text) := by
  obtain ⟨-, hclear, hmatches⟩ := of_first?_eq_some h
  intro rest
  obtain ⟨found, hfound, htext⟩ := matchAt_of_prefers (hprefers _ _ _ rest hmatches)
  refine ⟨a, found, ?_, by rw [htext]⟩
  rw [List.append_assoc]
  refine first?_of_clear (clear_iff.2 ?_) hfound htext (hne _ _ _ hmatches)
  -- a match before this one would end within it, or have it inside
  rintro x v rfl hv ⟨w, r, hsplit, hstarts⟩
  rw [← List.append_assoc] at hsplit
  rcases List.append_eq_append_iff.1 hsplit with ⟨y, rfl, -⟩ | ⟨y, hw, -⟩
  · rw [List.append_assoc] at hstarts
    exact hv (honce _ _ _ _ _ _ _ hmatches hstarts)
  · refine clear_iff.1 hclear x v rfl hv ?_
    rw [← List.append_assoc, hw, List.append_assoc]
    exact (hprefers _ _ _ (y ++ b) hstarts).startsAt

-- ============================================================ within the lines

/-- Whether a character other than white space comes next, and no quotation
mark. -/
def Unquoted (t : Text) : Prop :=
  ∃ a c r, t = a ++ c :: r ∧ (∀ d ∈ a, Text.isBlank d) ∧ Text.isBlank c = false
    ∧ isQuote c = false

theorem Unquoted.append (h : Unquoted t) : Unquoted (t ++ rest) := by
  obtain ⟨a, c, r, rfl, ha, hc, hquote⟩ := h
  exact ⟨a, c, r ++ rest, by simp, ha, hc, hquote⟩

theorem Unquoted.not_nil (h : Unquoted t) : t ≠ [] := by
  obtain ⟨a, c, r, rfl, -⟩ := h
  simp

theorem unquoted_flatMap {α : Type} {xs : List α} {f : α → Text}
    (h : ∀ x ∈ xs, Unquoted (f x)) (hrest : Unquoted rest) : Unquoted (xs.flatMap f ++ rest) :=
  next_flatMap (fun x hx _ => (h x hx).append) hrest

/-- A pattern that can tell neither which line it stands on nor what follows the
line it starts on, as long as that is no quotation mark. -/
structure LineBased (p : Pattern) : Prop where
  onNewLine : ∀ {before before' : Option Char} {t : Text}, OnNewLine before → OnNewLine before' →
    p.StartsAt before t → p.StartsAt before' t
  within : ∀ {before : Option Char} {t rest rest' : Text}, EndsLine t → t ≠ [] → Unquoted rest →
    p.StartsAt before (t ++ rest) → p.StartsAt before (t ++ rest')

namespace LineBased

theorem clear_onNewLine (hp : p.LineBased) (hbefore : OnNewLine before)
    (hbefore' : OnNewLine before') (h : p.Clear before t rest) : p.Clear before' t rest := by
  rw [clear_iff] at h ⊢
  intro u v htext hne hstart
  cases u with
  | nil => exact h [] v htext hne (hp.onNewLine hbefore' hbefore hstart)
  | cons c u => exact h (c :: u) v htext hne hstart

theorem clear_within (hp : p.LineBased) (ht : EndsLine t) (hnext : Unquoted rest')
    (h : p.Clear before t rest) : p.Clear before t rest' := by
  rw [clear_iff] at h ⊢
  intro u v htext hne hstart
  have hv : EndsLine v := by
    rw [htext] at ht
    exact .inr (ht.of_append hne)
  exact h u v htext hne (hp.within hv hne hnext hstart)

/-- Where nothing starts in whole lines, nothing starts in them with other lines
put between. -/
theorem clear_around (hp : p.LineBased) (ha : EndsLine a) (hm : EndsLine m)
    (hnext : Unquoted (m ++ b)) (h : p.Clear none (a ++ b) []) :
    p.Clear none a (m ++ b) ∧ p.Clear (lastAfter none (a ++ m)) b [] := by
  obtain ⟨hfront, hback⟩ := clear_append.1 h
  refine ⟨hp.clear_within ha hnext hfront, ?_⟩
  have hbefore := onNewLine_lastAfter ha onNewLine_none
  have hbefore' := onNewLine_lastAfter (ha.append hm) onNewLine_none
  exact hp.clear_onNewLine hbefore hbefore' hback

/-- Lines in which nothing starts may be put between lines in which nothing
starts. -/
theorem clear_insert (hp : p.LineBased) (ha : EndsLine a) (hm : EndsLine m)
    (hnext : Unquoted (m ++ b)) (h : p.Clear none (a ++ b) [])
    (hclear : p.Clear (lastAfter none a) m b) : p.Clear none (a ++ (m ++ b)) [] := by
  obtain ⟨hfront, hback⟩ := hp.clear_around ha hm hnext h
  rw [lastAfter_append] at hback
  rw [clear_append, clear_append]
  simp only [List.append_nil]
  exact ⟨hfront, hclear, hback⟩

end LineBased

-- ================================================================ after spacing

/-- Whether a text of some kind comes after spacing. -/
def Indented (Q : Text → Prop) (t : Text) : Prop :=
  ∃ a s, t = a ++ s ∧ (∀ c ∈ a, isSpacing c) ∧ Q s

/-- What comes after spacing is what starts with another character. -/
theorem Indented.of_append {Q : Text → Prop} {c : Char} (h : Indented Q (a ++ c :: t))
    (hQ : ∀ s, Q s → ∀ d ∈ s.head?, isSpacing d = false) (ha : ∀ d ∈ a, isSpacing d)
    (hc : isSpacing c = false) : Q (c :: t) := by
  obtain ⟨b, s, heq, hb, hs⟩ := h
  obtain ⟨-, rfl⟩ := Text.append_inj_of_span heq ha hb (by simpa using hc) (hQ s hs)
  exact hs

/-- A pattern that reads spacing at the start of a line, and then what is told by the
line, is told by the line. -/
theorem lineBased_of_indented {Q : Text → Prop}
    (hp : ∀ before t, p.StartsAt before t ↔ OnNewLine before ∧ Indented Q t)
    (hQ : ∀ s rest rest', Unquoted rest → Q (s ++ '\n' :: rest) → Q (s ++ '\n' :: rest')) :
    p.LineBased where
  onNewLine := by
    intro before before' t _ hbefore' h
    exact (hp _ _).2 ⟨hbefore', ((hp _ _).1 h).2⟩
  within := by
    intro before t rest rest' ht hne hnext h
    obtain ⟨v, rfl⟩ := ht.resolve_left hne
    obtain ⟨hbefore, a, s, heq, ha, hs⟩ := (hp _ _).1 h
    rw [List.append_assoc] at heq
    obtain ⟨y, rfl, rfl⟩ := Text.exists_append_of_notMem heq (newline_notMem_spacing ha)
    refine (hp _ _).2 ⟨hbefore, a, y ++ '\n' :: rest', by simp, ha, ?_⟩
    exact hQ y rest rest' hnext hs

-- ========================================================== keyword and argument

/-- Whether the text starts with a keyword, white space and an argument between
quotation marks. -/
def Keyed (keyword argument t : Text) : Prop :=
  ∃ g o c s, t = keyword ++ (g ++ o :: (argument ++ c :: s)) ∧ g ≠ []
    ∧ (∀ d ∈ g, Text.isBlank d) ∧ isQuote o ∧ isQuote c

theorem Keyed.append {keyword argument : Text} (h : Keyed keyword argument t) :
    Keyed keyword argument (t ++ rest) := by
  obtain ⟨g, o, c, s, rfl, hne, hg, ho, hc⟩ := h
  exact ⟨g, o, c, s ++ rest, by simp, hne, hg, ho, hc⟩

theorem Keyed.not_nil {keyword argument : Text} (h : Keyed keyword argument t) : t ≠ [] := by
  obtain ⟨g, o, c, s, rfl, -⟩ := h
  simp

theorem startsAt_keyed {keyword argument : Text} :
    (literal keyword ++ gap ++ quoted argument).StartsAt before t ↔ Keyed keyword argument t := by
  constructor
  · rintro ⟨_, s, rfl, h⟩
    simp only [matches_append, matches_literal, matches_gap, matches_quoted] at h
    obtain ⟨_, _, rfl, ⟨_, g, rfl, rfl, hne, hg⟩, o, c, ho, hc, rfl⟩ := h
    exact ⟨g, o, c, s, by simp, hne, hg, ho, hc⟩
  · rintro ⟨g, o, c, s, rfl, hne, hg, ho, hc⟩
    refine ⟨keyword ++ g ++ (o :: argument ++ [c]), s, by simp, ?_⟩
    exact matches_append.2 ⟨_, _, rfl, matches_append.2 ⟨_, _, rfl, matches_literal.2 rfl,
      matches_gap.2 ⟨hne, hg⟩⟩, matches_quoted.2 ⟨o, c, ho, hc, rfl⟩⟩

theorem occursIn_keyed {keyword argument : Text} :
    (literal keyword ++ gap ++ quoted argument).occursIn t = true
      ↔ ∃ u m, t = u ++ m ∧ Keyed keyword argument m := by
  constructor
  · intro h
    obtain ⟨u, m, rfl, -, hstarts⟩ := exists_startsAt h
    exact ⟨u, m, rfl, startsAt_keyed.1 hstarts⟩
  · rintro ⟨u, m, rfl, hkeyed⟩
    exact occursIn_of_startsAt (startsAt_keyed.2 hkeyed) hkeyed.not_nil

theorem ne_newline_of_isQuote {c : Char} (h : isQuote c) : c ≠ '\n' := by
  rintro rfl
  cases h

/-- A keyword in a text of whole lines has its argument there too, or all that stands behind it
there is white space, and a quotation mark comes next. -/
theorem Keyed.within_or_open {keyword argument : Text} (hkeyword : '\n' ∉ keyword)
    (hargument : '\n' ∉ argument) (ht : EndsLine t) (hne : t ≠ [])
    (h : Keyed keyword argument (t ++ rest)) :
    Keyed keyword argument t ∨ (∃ g, t = keyword ++ g ∧ ∀ d ∈ g, Text.isBlank d) ∧ ¬ Unquoted rest := by
  obtain ⟨v, rfl⟩ := ht.resolve_left hne
  obtain ⟨g, o, c, s, heq, hgap, hg, ho, hc⟩ := h
  rw [List.append_assoc] at heq
  obtain ⟨y, rfl, hy⟩ := Text.exists_append_of_notMem heq hkeyword
  have hopen : '\n' ≠ o := (ne_newline_of_isQuote ho).symm
  have hclose : '\n' ≠ c := (ne_newline_of_isQuote hc).symm
  rcases List.append_eq_append_iff.1 hy with ⟨z, rfl, hz⟩ | ⟨z, rfl, hz⟩
  · cases z with
    | nil => exact absurd (List.cons_eq_cons.1 hz).1.symm hopen
    | cons d z =>
        obtain ⟨rfl, harg⟩ : o = d ∧ argument ++ c :: s = z ++ '\n' :: rest := List.cons_eq_cons.1 hz
        obtain ⟨w, rfl, hw⟩ := Text.exists_append_of_notMem harg.symm hargument
        cases w with
        | nil => exact absurd (List.cons_eq_cons.1 hw).1.symm hclose
        | cons d w =>
            obtain ⟨rfl, -⟩ : c = d ∧ s = w ++ '\n' :: rest := List.cons_eq_cons.1 hw
            exact .inl ⟨g, o, c, w ++ ['\n'], by simp, hgap, hg, ho, hc⟩
  · cases z with
    | nil => exact absurd (List.cons_eq_cons.1 hz).1 hopen
    | cons d z =>
        -- all of the lines is white space: then the quotation mark comes next
        obtain ⟨rfl, hrest⟩ : '\n' = d ∧ rest = z ++ o :: (argument ++ c :: s) := List.cons_eq_cons.1 hz
        refine .inr ⟨⟨y ++ ['\n'], by simp, fun x hx => hg x ?_⟩, ?_⟩
        · rcases List.mem_append.1 hx with hx | hx
          · exact List.mem_append_left _ hx
          · simp [List.mem_singleton.1 hx]
        · rintro ⟨a, e, r, htext, ha, he, hquote⟩
          rw [hrest] at htext
          have hz : ∀ x ∈ z, Text.isBlank x := fun x hx => hg x (by simp [hx])
          have hblank : Text.isBlank o = false := Text.not_isBlank_of_isQuote ho
          obtain ⟨-, htail⟩ := Text.append_inj_of_span htext hz ha (by simpa using hblank) (by simpa using he)
          obtain ⟨rfl, -⟩ := List.cons_eq_cons.1 htail
          rw [ho] at hquote
          cases hquote

/-- A keyword in a text of whole lines has its argument there too, if no quotation
mark comes next. -/
theorem Keyed.within {keyword argument : Text} (hkeyword : '\n' ∉ keyword)
    (hargument : '\n' ∉ argument) (ht : EndsLine t) (hne : t ≠ []) (hnext : Unquoted rest)
    (h : Keyed keyword argument (t ++ rest)) : Keyed keyword argument t :=
  (h.within_or_open hkeyword hargument ht hne).resolve_right fun hopen => hopen.2 hnext

/-- A text without quotation marks has no keyword with its argument. -/
theorem Keyed.exists_quote {keyword argument : Text} (h : Keyed keyword argument t) :
    ∃ c ∈ t, isQuote c := by
  obtain ⟨g, o, c, s, rfl, -, -, ho, -⟩ := h
  exact ⟨o, by simp, ho⟩

/-- There are at least the two around the argument. -/
theorem Keyed.two_quotes {keyword argument : Text} (h : Keyed keyword argument t) :
    2 ≤ t.countP isQuote := by
  obtain ⟨g, o, c, s, rfl, -, -, ho, hc⟩ := h
  simp only [List.countP_append, List.countP_cons, ho, hc, if_true]
  omega

end SiteScaffold.Pattern

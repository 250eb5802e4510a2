/-
What a pattern can match, said without running it. `Accepts` reads a pattern as a
set of texts in context: the text it passes over, the character before that
text and the text after it, since line edges and word edges look at both. The
captures met on the way are part of the reading.

Running a pattern and reading it agree in two directions:

- `run_sound`: whatever a run finds is a way of reading the pattern, and the
  captures it comes back with are the captures of that way;
- `run_complete`: if there is a way of reading the pattern after which the
  continuation succeeds, the run finds one.

At a single place this is `matchAt_sound` and `matchAt_complete`. Which of several
ways a run prefers is another matter; that is `Prefers`, in the next module.
-/
import SiteScaffold.Pattern.Class

namespace SiteScaffold.Pattern

-- ================================================= the place after a text

/-- The character before the place that a text leads to. -/
def lastAfter (before : Option Char) : Text → Option Char
  | [] => before
  | c :: rest => lastAfter (some c) rest

@[simp] theorem lastAfter_nil (before : Option Char) : lastAfter before [] = before := rfl

@[simp] theorem lastAfter_cons (before : Option Char) (c : Char) (t : Text) :
    lastAfter before (c :: t) = lastAfter (some c) t := rfl

@[simp] theorem lastAfter_append (before : Option Char) (t u : Text) :
    lastAfter before (t ++ u) = lastAfter (lastAfter before t) u := by
  induction t generalizing before with
  | nil => rfl
  | cons c t ih => exact ih (some c)

/-- Only the last character of a text shows at the place after it. -/
theorem lastAfter_concat (before : Option Char) (t : Text) (c : Char) :
    lastAfter before (t ++ [c]) = some c := by
  simp

-- ======================================================= reading a pattern

/-- The pattern matches the text `t` between the character `before` it and the
text `rest` after it, and keeps `kept` on the way, outer captures first. -/
def Accepts (p : Pattern) (before : Option Char) (t rest : Text) (kept : List (Nat × Text)) :
    Prop :=
  match p with
  | empty => t = [] ∧ kept = []
  | one ok => ∃ c, ok c ∧ t = [c] ∧ kept = []
  | many ok => (∀ c ∈ t, ok c) ∧ kept = []
  | few ok => (∀ c ∈ t, ok c) ∧ kept = []
  | seq first second =>
      ∃ u v, t = u ++ v ∧ ∃ k l, kept = k ++ l
        ∧ first.Accepts before u (v ++ rest) k ∧ second.Accepts (lastAfter before u) v rest l
  | alt first second => first.Accepts before t rest kept ∨ second.Accepts before t rest kept
  | capture n body => ∃ inner, kept = (n, t) :: inner ∧ body.Accepts before t rest inner
  | lineStart => t = [] ∧ kept = [] ∧ before.all (· = '\n')
  | lineEnd => t = [] ∧ kept = [] ∧ rest.head?.all (· = '\n')
  | textEnd => t = [] ∧ kept = [] ∧ rest = []
  | boundary =>
      t = [] ∧ kept = [] ∧ (before.any Text.isWord != rest.head?.any Text.isWord)

/-- The pattern matches the text, whatever it keeps. -/
def Matches (p : Pattern) (before : Option Char) (t rest : Text) : Prop :=
  ∃ kept, p.Accepts before t rest kept

-- ======================================================= a run is a reading

/-- The stretch of a text that a capture stands for. -/
def slice (t : Text) (x : Nat × Nat × Nat) : Nat × Text :=
  (x.1, (t.drop (t.length - x.2.1)).take (x.2.1 - x.2.2))

/-- `found` is what became of `later` by a way through the text `t` that kept
`kept`: the end of the match is the same, the captures are those of the way
before those of `later`. -/
def Found.Follows (found later : Found) (t : Text) (kept : List (Nat × Text)) : Prop :=
  found.left = later.left ∧ found.ends = later.ends
    ∧ ∃ marks, found.kept = marks ++ later.kept ∧ marks.map (slice t) = kept
      ∧ ∀ x ∈ marks, x.2.1 ≤ t.length

/-- A stretch of the end of a text is a stretch of the text. -/
theorem slice_append (u t : Text) (x : Nat × Nat × Nat) (hx : x.2.1 ≤ t.length) :
    slice (u ++ t) x = slice t x := by
  have hlen : (u ++ t).length - x.2.1 = u.length + (t.length - x.2.1) := by
    rw [List.length_append]
    omega
  rw [slice, slice, hlen, ← List.drop_drop, List.drop_left]

/-- A stretch between two places is the text between them. -/
theorem slice_mid (n : Nat) (t rest : Text) :
    slice (t ++ rest) (n, (t ++ rest).length, rest.length) = (n, t) := by
  simp [slice]

theorem Found.follows_refl (found : Found) (t : Text) : found.Follows found t [] :=
  ⟨rfl, rfl, [], rfl, rfl, by simp⟩

/-- Ways follow each other. -/
theorem Found.Follows.trans {a b c : Found} {u t : Text} {k l : List (Nat × Text)}
    (hab : a.Follows b (u ++ t) k) (hbc : b.Follows c t l) :
    a.Follows c (u ++ t) (k ++ l) := by
  obtain ⟨hleft, hends, marks, hkept, hslice, hle⟩ := hab
  obtain ⟨hleft', hends', marks', hkept', hslice', hle'⟩ := hbc
  refine ⟨hleft.trans hleft', hends.trans hends', marks ++ marks', ?_, ?_, ?_⟩
  · rw [hkept, hkept', List.append_assoc]
  · rw [List.map_append, hslice]
    congr 1
    rw [← hslice']
    exact List.map_congr_left fun x hx => slice_append u t x (hle' x hx)
  · intro x hx
    rcases List.mem_append.1 hx with hx | hx
    · exact hle x hx
    · have := hle' x hx
      rw [List.length_append]
      omega

/-- A capture that closes and opens around a way is kept before what the way
keeps. -/
theorem Found.Follows.opened {found later : Found} {t rest : Text} {kept : List (Nat × Text)}
    (n : Nat) (h : found.Follows (later.closed rest.length) (t ++ rest) kept) :
    (found.opened n (t ++ rest).length).Follows later (t ++ rest) ((n, t) :: kept) := by
  obtain ⟨hleft, hends, marks, hkept, hslice, hle⟩ := h
  have hends' : found.ends = rest.length :: later.ends := hends
  refine ⟨?_, ?_, (n, (t ++ rest).length, rest.length) :: marks, ?_, ?_, ?_⟩
  · rw [Found.opened, hends']
    exact hleft
  · rw [Found.opened, hends']
  · rw [Found.opened, hends']
    show _ :: found.kept = _
    rw [hkept]
    rfl
  · rw [List.map_cons, slice_mid, hslice]
  · intro x hx
    rcases List.mem_cons.1 hx with rfl | hx
    · exact Nat.le_refl _
    · exact hle x hx

theorem runMany_cons (ok : Char → Bool) (next : Cursor → Option Found) (before : Option Char)
    (c : Char) (t : Text) :
    runMany ok next before (c :: t) =
      if ok c then (runMany ok next (some c) t).or (next ⟨before, c :: t⟩)
      else next ⟨before, c :: t⟩ := by
  simp [runMany]

theorem runFew_cons (ok : Char → Bool) (next : Cursor → Option Found) (before : Option Char)
    (c : Char) (t : Text) :
    runFew ok next before (c :: t) =
      if ok c then (next ⟨before, c :: t⟩).or (runFew ok next (some c) t)
      else next ⟨before, c :: t⟩ := by
  simp [runFew]

/-- A run over characters of a class ends somewhere along them, in whatever
order it tries the places. -/
theorem along_sound {ok : Char → Bool} {next : Cursor → Option Found}
    (along : Option Char → Text → Option Found)
    (hnil : ∀ before, along before [] = next ⟨before, []⟩)
    (hcons : ∀ before c t found, along before (c :: t) = some found →
      next ⟨before, c :: t⟩ = some found ∨ ok c ∧ along (some c) t = some found)
    {before : Option Char} {t : Text} {found : Found} (h : along before t = some found) :
    ∃ u rest, t = u ++ rest ∧ (∀ c ∈ u, ok c)
      ∧ next ⟨lastAfter before u, rest⟩ = some found := by
  induction t generalizing before with
  | nil => exact ⟨[], [], rfl, by simp, by rw [← h, hnil]; rfl⟩
  | cons c t ih =>
      rcases hcons _ _ _ _ h with hstop | ⟨hok, hlong⟩
      · exact ⟨[], c :: t, rfl, by simp, hstop⟩
      · obtain ⟨u, rest, rfl, hall, hnext⟩ := ih hlong
        refine ⟨c :: u, rest, rfl, ?_, hnext⟩
        simpa [hok] using hall

/-- If the continuation succeeds somewhere along the characters of a class, so
does the run over them. -/
theorem along_complete {ok : Char → Bool} {next : Cursor → Option Found}
    (along : Option Char → Text → Option Found)
    (hnil : ∀ before, along before [] = next ⟨before, []⟩)
    (hcons : ∀ before c t, along before (c :: t) = none →
      next ⟨before, c :: t⟩ = none ∧ (ok c → along (some c) t = none))
    {before : Option Char} {u rest : Text} (hall : ∀ c ∈ u, ok c)
    (h : along before (u ++ rest) = none) :
    next ⟨lastAfter before u, rest⟩ = none := by
  induction u generalizing before with
  | nil =>
      cases rest with
      | nil => rw [← hnil]; exact h
      | cons c rest => exact (hcons _ _ _ h).1
  | cons c u ih =>
      have hc : ok c := hall c (List.mem_cons_self ..)
      exact ih (fun d hd => hall d (List.mem_cons_of_mem _ hd)) ((hcons _ _ _ h).2 hc)

theorem runMany_sound {ok : Char → Bool} {next : Cursor → Option Found} {before : Option Char}
    {t : Text} {found : Found} (h : runMany ok next before t = some found) :
    ∃ u rest, t = u ++ rest ∧ (∀ c ∈ u, ok c)
      ∧ next ⟨lastAfter before u, rest⟩ = some found := by
  refine along_sound (runMany ok next) (fun _ => rfl) ?_ h
  intro before c t found h
  rw [runMany_cons] at h
  split at h
  next hok =>
    rcases Option.or_eq_some_iff.1 h with hlong | ⟨-, hstop⟩
    · exact .inr ⟨hok, hlong⟩
    · exact .inl hstop
  next => exact .inl h

theorem runFew_sound {ok : Char → Bool} {next : Cursor → Option Found} {before : Option Char}
    {t : Text} {found : Found} (h : runFew ok next before t = some found) :
    ∃ u rest, t = u ++ rest ∧ (∀ c ∈ u, ok c)
      ∧ next ⟨lastAfter before u, rest⟩ = some found := by
  refine along_sound (runFew ok next) (fun _ => rfl) ?_ h
  intro before c t found h
  rw [runFew_cons] at h
  split at h
  next hok =>
    rcases Option.or_eq_some_iff.1 h with hstop | ⟨-, hlong⟩
    · exact .inl hstop
    · exact .inr ⟨hok, hlong⟩
  next => exact .inl h

/-- What a run comes back with is what its continuation made of some way of
reading the pattern. -/
theorem run_sound {p : Pattern} {next : Cursor → Option Found} {before : Option Char}
    {t : Text} {found : Found} (h : p.run ⟨before, t⟩ next = some found) :
    ∃ u rest kept later, t = u ++ rest ∧ p.Accepts before u rest kept
      ∧ next ⟨lastAfter before u, rest⟩ = some later ∧ found.Follows later t kept := by
  induction p generalizing next before t found with
  | empty => exact ⟨[], t, [], found, rfl, ⟨rfl, rfl⟩, h, found.follows_refl t⟩
  | one ok =>
      cases t with
      | nil => cases h
      | cons c rest =>
          simp only [run] at h
          split at h
          next hok =>
            exact ⟨[c], rest, [], found, rfl, ⟨c, hok, rfl, rfl⟩, h, found.follows_refl _⟩
          next => cases h
  | many ok =>
      obtain ⟨u, rest, rfl, hall, hnext⟩ := runMany_sound h
      exact ⟨u, rest, [], found, rfl, ⟨hall, rfl⟩, hnext, found.follows_refl _⟩
  | few ok =>
      obtain ⟨u, rest, rfl, hall, hnext⟩ := runFew_sound h
      exact ⟨u, rest, [], found, rfl, ⟨hall, rfl⟩, hnext, found.follows_refl _⟩
  | seq first second ihFirst ihSecond =>
      obtain ⟨u, mid, k, between, rfl, hfirst, hmid, hfollows⟩ := ihFirst h
      obtain ⟨v, rest, l, later, rfl, hsecond, hnext, hfollows'⟩ := ihSecond hmid
      refine ⟨u ++ v, rest, k ++ l, later, by simp, ?_, by simpa using hnext, ?_⟩
      · exact ⟨u, v, rfl, k, l, rfl, hfirst, hsecond⟩
      · exact hfollows.trans hfollows'
  | alt first second ihFirst ihSecond =>
      simp only [run, Option.orElse_eq_orElse, Option.orElse_eq_or, Option.or_eq_some_iff] at h
      rcases h with h | ⟨-, h⟩
      · obtain ⟨u, rest, k, later, rfl, hfirst, hnext, hfollows⟩ := ihFirst h
        exact ⟨u, rest, k, later, rfl, .inl hfirst, hnext, hfollows⟩
      · obtain ⟨u, rest, k, later, rfl, hsecond, hnext, hfollows⟩ := ihSecond h
        exact ⟨u, rest, k, later, rfl, .inr hsecond, hnext, hfollows⟩
  | capture n body ih =>
      obtain ⟨inside, hbody, rfl⟩ := Option.map_eq_some_iff.1 h
      obtain ⟨u, rest, k, closed, rfl, haccepts, hclosed, hfollows⟩ := ih hbody
      obtain ⟨later, hnext, rfl⟩ := Option.map_eq_some_iff.1 hclosed
      exact ⟨u, rest, (n, u) :: k, later, rfl, ⟨k, rfl, haccepts⟩, hnext, hfollows.opened n⟩
  | lineStart =>
      simp only [run] at h
      split at h
      next hat => exact ⟨[], t, [], found, rfl, ⟨rfl, rfl, hat⟩, h, found.follows_refl t⟩
      next => cases h
  | lineEnd =>
      simp only [run] at h
      split at h
      next hat => exact ⟨[], t, [], found, rfl, ⟨rfl, rfl, hat⟩, h, found.follows_refl t⟩
      next => cases h
  | textEnd =>
      simp only [run] at h
      split at h
      next hat =>
        have hnil : t = [] := List.isEmpty_iff.1 hat
        exact ⟨[], t, [], found, rfl, ⟨rfl, rfl, hnil⟩, h, found.follows_refl t⟩
      next => cases h
  | boundary =>
      simp only [run] at h
      split at h
      next hat => exact ⟨[], t, [], found, rfl, ⟨rfl, rfl, hat⟩, h, found.follows_refl t⟩
      next => cases h

-- ======================================================= a reading is a run

/-- If the continuation succeeds after some way of reading the pattern, the run
succeeds. -/
theorem run_complete {p : Pattern} {next : Cursor → Option Found} {before : Option Char}
    {u rest : Text} {kept : List (Nat × Text)} (haccepts : p.Accepts before u rest kept)
    (h : p.run ⟨before, u ++ rest⟩ next = none) :
    next ⟨lastAfter before u, rest⟩ = none := by
  induction p generalizing next before u rest kept with
  | empty =>
      obtain ⟨rfl, -⟩ := haccepts
      exact h
  | one ok =>
      obtain ⟨c, hok, rfl, -⟩ := haccepts
      simpa [run, hok] using h
  | many ok =>
      refine along_complete (runMany ok next) (fun _ => rfl) ?_ haccepts.1 h
      intro before c t hnone
      rw [runMany_cons] at hnone
      split at hnone
      next hok => grind
      next hok => exact ⟨hnone, fun hc => absurd hc hok⟩
  | few ok =>
      refine along_complete (runFew ok next) (fun _ => rfl) ?_ haccepts.1 h
      intro before c t hnone
      rw [runFew_cons] at hnone
      split at hnone
      next hok => grind
      next hok => exact ⟨hnone, fun hc => absurd hc hok⟩
  | seq first second ihFirst ihSecond =>
      obtain ⟨v, w, rfl, k, l, -, hfirst, hsecond⟩ := haccepts
      rw [List.append_assoc] at h
      rw [lastAfter_append]
      exact ihSecond hsecond (ihFirst hfirst h)
  | alt first second ihFirst ihSecond =>
      simp only [run, Option.orElse_eq_orElse, Option.orElse_eq_or, Option.or_eq_none_iff] at h
      rcases haccepts with haccepts | haccepts
      · exact ihFirst haccepts h.1
      · exact ihSecond haccepts h.2
  | capture n body ih =>
      obtain ⟨inner, -, hbody⟩ := haccepts
      have hnone := ih hbody (Option.map_eq_none_iff.1 h)
      exact Option.map_eq_none_iff.1 hnone
  | lineStart =>
      obtain ⟨rfl, -, hat⟩ := haccepts
      simpa [run, Cursor.atLineStart, hat] using h
  | lineEnd =>
      obtain ⟨rfl, -, hat⟩ := haccepts
      simpa [run, Cursor.atLineEnd, hat] using h
  | textEnd =>
      obtain ⟨rfl, -, rfl⟩ := haccepts
      exact h
  | boundary =>
      obtain ⟨rfl, -, hat⟩ := haccepts
      simpa [run, Cursor.atBoundary, hat] using h

-- ======================================================= at a single place

/-- A hit is a way of reading the pattern at its place. -/
theorem matchAt_sound {p : Pattern} {before : Option Char} {t : Text} {hit : Hit}
    (h : p.matchAt ⟨before, t⟩ = some hit) :
    ∃ rest, t = hit.text ++ rest ∧ p.Accepts before hit.text rest hit.kept := by
  obtain ⟨found, hrun, rfl⟩ := Option.map_eq_some_iff.1 h
  obtain ⟨u, rest, kept, later, rfl, haccepts, hlater, hleft, -, marks, hkept, hslice, -⟩ :=
    run_sound hrun
  obtain rfl : Found.ending rest.length = later := Option.some.inj hlater
  have hstop : found.left = rest.length := hleft
  have htext : (found.hit (u ++ rest).length (u ++ rest)).text = u := by
    simp [Found.hit, hstop]
  have hmarks : found.kept = marks := by simpa [Found.ending] using hkept
  have hcaptures : (found.hit (u ++ rest).length (u ++ rest)).kept = kept := by
    rw [← hslice, ← hmarks]
    rfl
  refine ⟨rest, ?_, ?_⟩
  · show u ++ rest = (found.hit (u ++ rest).length (u ++ rest)).text ++ rest
    rw [htext]
  · show p.Accepts before (found.hit (u ++ rest).length (u ++ rest)).text rest
      (found.hit (u ++ rest).length (u ++ rest)).kept
    rw [htext, hcaptures]
    exact haccepts

/-- Where the pattern can be read, there is a hit. -/
theorem matchAt_complete {p : Pattern} {before : Option Char} {u rest : Text}
    (h : p.Matches before u rest) : ∃ hit, p.matchAt ⟨before, u ++ rest⟩ = some hit := by
  obtain ⟨kept, haccepts⟩ := h
  cases hrun : p.matchAt ⟨before, u ++ rest⟩ with
  | some hit => exact ⟨hit, rfl⟩
  | none =>
      have hnone := run_complete haccepts (Option.map_eq_none_iff.1 hrun)
      cases hnone

/-- There is no hit at a place exactly if the pattern cannot be read there. -/
theorem matchAt_eq_none_iff {p : Pattern} {before : Option Char} {t : Text} :
    p.matchAt ⟨before, t⟩ = none ↔ ∀ u rest, t = u ++ rest → ¬ p.Matches before u rest := by
  constructor
  · rintro h u rest rfl hmatches
    obtain ⟨hit, hhit⟩ := matchAt_complete hmatches
    rw [h] at hhit
    cases hhit
  · intro h
    cases hhit : p.matchAt ⟨before, t⟩ with
    | none => rfl
    | some hit =>
        obtain ⟨rest, ht, haccepts⟩ := matchAt_sound hhit
        exact absurd ⟨_, haccepts⟩ (h _ _ ht)

end SiteScaffold.Pattern

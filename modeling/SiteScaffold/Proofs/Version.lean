/-
Which versions are recent enough. A version is its three numbers; what a banner says behind them, such
as a fourth number or the name of a beta, is no part of it.

A banner is read at its first digit, so what stands before it
does not matter as long as no digit does (`clear_of_no_digit`). Each number goes as far as its
digits do, and a third number belongs to the version exactly if a dot and a digit follow the second
one (`prefers_shape`). What is read is numbers with dots between them, and those can be told apart in
one way only (`numbers_of_accepts`, `numbers_inj`). So a version is known exactly if its numbers all
fit, and it is supported exactly if it comes no earlier than the least version in the order of the
three numbers (`supported_exactly`).
-/
import Mathlib.Data.Prod.Lex
import SiteScaffold.Version
import SiteScaffold.Proofs.Pattern.Lines
import SiteScaffold.Proofs.Text.Decimal

namespace SiteScaffold.Version

open Pattern

variable {before : Option Char} {front a b back rest digits banner : Text} {third : Option Text}

-- ============================================================== numbers

/-- Whether the text is a number in ASCII digits. -/
def IsNumeral (digits : Text) : Prop := digits ≠ [] ∧ ∀ d ∈ digits, d.isDigit

instance (digits : Text) : Decidable (IsNumeral digits) :=
  inferInstanceAs (Decidable (digits ≠ [] ∧ ∀ d ∈ digits, d.isDigit))

/-- The number that digits stand for. -/
def value (digits : Text) : Nat := Nat.ofDigitChars 10 digits 0

/-- A number is read if it fits in 64 bits. -/
theorem decimal?_numeral (h : IsNumeral digits) :
    Text.decimal? largest digits = if value digits < UInt64.size then some (value digits) else none := by
  rw [Text.decimal?_digits h.1 h.2]
  have hlargest : Nat.ofDigitChars 10 digits 0 ≤ largest ↔ value digits < UInt64.size :=
    Nat.lt_succ_iff.symm
  simp only [hlargest]
  rfl

/-- Whether the text is a run of digits, in whatever script. -/
def IsRun (digits : Text) : Prop := digits ≠ [] ∧ ∀ d ∈ digits, Text.isDigit d

theorem IsNumeral.isRun (h : IsNumeral digits) : IsRun digits :=
  ⟨h.1, fun d hd => Text.isDigit_of_isAscii (h.2 d hd)⟩

theorem IsRun.notMem_dot (h : IsRun digits) : '.' ∉ digits := by
  intro hmem
  have hdot := h.2 _ hmem
  cases hdot

/-- A number is read with all the digits there are. -/
theorem prefers_run (n : Nat) (h : IsRun digits) (hrest : ∀ d ∈ rest.head?, Text.isDigit d = false) :
    (capture n (oneOrMore Text.isDigit)).Prefers before digits rest :=
  prefers_capture (prefers_oneOrMore h.1 h.2 hrest)

-- ================================================= a version in a banner

/-- The third number of a version with the dot before it, if there is one. -/
def patchPart (third : Option Text) : Text := third.elim [] ('.' :: ·)

/-- A version of two numbers or three. -/
def numbers (a b : Text) (third : Option Text) : Text := a ++ ("." ++ (b ++ patchPart third))

/-- Whether a version that stands before the text is over: no digit follows, and if there is no third
number yet, none begins. -/
def EndsVersion (third : Option Text) (back : Text) : Prop :=
  (∀ d ∈ back.head?, Text.isDigit d = false)
    ∧ (third = none → ∀ d, ['.', d] <+: back → Text.isDigit d = false)

/-- A version starts with a digit. -/
theorem digit_of_startsAt {t : Text} (h : shape.StartsAt before t) :
    ∃ d s, t = d :: s ∧ Text.isDigit d := by
  obtain ⟨u, s, rfl, hmatches⟩ := h.left.left.left
  obtain ⟨hne, hdigits⟩ := matches_oneOrMore.1 (matches_capture.1 hmatches)
  obtain ⟨d, u, rfl⟩ := List.exists_cons_of_ne_nil hne
  exact ⟨d, u ++ s, rfl, hdigits d (List.mem_cons_self ..)⟩

/-- No version starts before the first digit. -/
theorem clear_of_no_digit (hfront : ∀ d ∈ front, Text.isDigit d = false) (rest : Text) :
    shape.Clear none front rest := by
  rw [clear_iff]
  rintro u v rfl hne hstarts
  obtain ⟨c, v, rfl⟩ := List.exists_cons_of_ne_nil hne
  obtain ⟨d, s, heq, hd⟩ := digit_of_startsAt hstarts
  obtain rfl : c = d := (List.cons_eq_cons.1 heq).1
  have hc : Text.isDigit c = false := hfront c (by simp)
  rw [hc] at hd
  cases hd

theorem not_isDigit_of_dot (t : Text) : ∀ d ∈ ('.' :: t).head?, Text.isDigit d = false := by
  intro d hd
  obtain rfl : '.' = d := by simpa using hd
  decide

/-- The third number is read where there is one, and only there. -/
theorem prefers_patch (hthird : ∀ c ∈ third, IsRun c) (hback : EndsVersion third back) :
    (optional ("." ++ capture 3 (oneOrMore Text.isDigit))).Prefers before (patchPart third) back := by
  cases third with
  | some c =>
      exact prefers_optional (prefers_append (prefers_literal ".".toList) (prefers_run 3 (hthird c rfl) hback.1))
  | none =>
      refine prefers_optional_nil fun v w htext hmatches => ?_
      obtain ⟨x, u, rfl, hdot, hnumber⟩ := matches_append.1 hmatches
      obtain rfl := matches_literal.1 hdot
      obtain ⟨hne, hdigits⟩ := matches_oneOrMore.1 (matches_capture.1 hnumber)
      obtain ⟨d, u, rfl⟩ := List.exists_cons_of_ne_nil hne
      have hd := hback.2 rfl d ⟨u ++ w, by rw [htext]; rfl⟩
      rw [hdigits d (List.mem_cons_self ..)] at hd
      cases hd

/-- A version is read with all its numbers. -/
theorem prefers_shape (ha : IsRun a) (hb : IsRun b) (hthird : ∀ c ∈ third, IsRun c)
    (hback : EndsVersion third back) : shape.Prefers before (numbers a b third) back := by
  have hpatch : ∀ d ∈ (patchPart third ++ back).head?, Text.isDigit d = false := by
    cases third with
    | none => exact hback.1
    | some c => exact not_isDigit_of_dot _
  rw [shape, prefers_assoc, prefers_assoc]
  exact prefers_append (prefers_run 1 ha (not_isDigit_of_dot _)) (prefers_append (prefers_literal ".".toList)
    (prefers_append (prefers_run 2 hb hpatch) (prefers_patch hthird hback)))

-- ================================================ what a banner tells

theorem accepts_run {n : Nat} {t : Text} {kept : List (Nat × Text)} :
    (capture n (oneOrMore Text.isDigit)).Accepts before t rest kept ↔ IsRun t ∧ kept = [(n, t)] := by
  rw [accepts_capture]
  constructor
  · rintro ⟨inner, rfl, hinner⟩
    obtain ⟨hrun, rfl⟩ := (accepts_iff (by rfl)).1 hinner
    exact ⟨matches_oneOrMore.1 hrun, rfl⟩
  · rintro ⟨hrun, rfl⟩
    exact ⟨[], rfl, (accepts_iff (by rfl)).2 ⟨matches_oneOrMore.2 hrun, rfl⟩⟩

theorem accepts_point {t : Text} {kept : List (Nat × Text)}
    (h : (literal ".".toList).Accepts before t rest kept) : t = ['.'] ∧ kept = [] := by
  obtain ⟨hpoint, rfl⟩ := (accepts_iff (captureFree_literal _)).1 h
  exact ⟨matches_literal.1 hpoint, rfl⟩

/-- What is read as a version is two numbers or three, and those are what is captured. -/
theorem numbers_of_accepts {t : Text} {kept : List (Nat × Text)} (h : shape.Accepts before t rest kept) :
    ∃ a b third, t = numbers a b third ∧ IsRun a ∧ IsRun b
      ∧ kept = [(1, a), (2, b)] ++ third.toList.map (3, ·) := by
  obtain ⟨_, tail, rfl, _, l, rfl, hlead, htail⟩ := accepts_append.1 h
  obtain ⟨_, b, rfl, _, _, rfl, hlead, hsecond⟩ := accepts_append.1 hlead
  obtain ⟨a, _, rfl, _, _, rfl, hfirst, hpoint⟩ := accepts_append.1 hlead
  obtain ⟨ha, rfl⟩ := accepts_run.1 hfirst
  obtain ⟨rfl, rfl⟩ := accepts_point hpoint
  obtain ⟨hb, rfl⟩ := accepts_run.1 hsecond
  rcases htail with htail | ⟨rfl, rfl⟩
  · obtain ⟨_, c, rfl, _, _, rfl, hpoint, hthird⟩ := accepts_append.1 htail
    obtain ⟨rfl, rfl⟩ := accepts_point hpoint
    obtain ⟨-, rfl⟩ := accepts_run.1 hthird
    exact ⟨a, b, some c, by simp [numbers, patchPart], ha, hb, rfl⟩
  · exact ⟨a, b, none, by simp [numbers, patchPart], ha, hb, rfl⟩

/-- The dots tell the numbers of a version apart. -/
theorem numbers_inj {a' b' : Text} {third' : Option Text} (h : numbers a b third = numbers a' b' third')
    (ha : '.' ∉ a) (hb : '.' ∉ b) (ha' : '.' ∉ a') (hb' : '.' ∉ b') :
    a = a' ∧ b = b' ∧ third = third' := by
  have hsplit : a ++ '.' :: (b ++ patchPart third) = a' ++ '.' :: (b' ++ patchPart third') := h
  obtain rfl := Text.eq_of_first hsplit ha ha'
  have hrest : b ++ patchPart third = b' ++ patchPart third' :=
    (List.cons_eq_cons.1 (List.append_cancel_left hsplit)).2
  cases third with
  | none =>
      cases third' with
      | none => exact ⟨rfl, by simpa [patchPart] using hrest, rfl⟩
      | some c =>
          rw [patchPart, patchPart, Option.elim_none, List.append_nil] at hrest
          exact absurd (by rw [hrest]; simp) hb
  | some c =>
      cases third' with
      | none =>
          rw [patchPart, patchPart, Option.elim_none, List.append_nil] at hrest
          exact absurd (by rw [← hrest]; simp) hb'
      | some c' =>
          obtain rfl := Text.eq_of_first hrest hb hb'
          obtain rfl : c = c' := (List.cons_eq_cons.1 (List.append_cancel_left hrest)).2
          exact ⟨rfl, rfl, rfl⟩

/-- The version of a banner is the first one that stands in it. -/
theorem parse?_numbers (hfront : ∀ d ∈ front, Text.isDigit d = false) (ha : IsRun a) (hb : IsRun b)
    (hthird : ∀ c ∈ third, IsRun c) (hback : EndsVersion third back) :
    parse? (front ++ (numbers a b third ++ back)) = do
      let major ← Text.decimal? largest a
      let minor ← Text.decimal? largest b
      let patch ← third.elim (some 0) (Text.decimal? largest)
      return ⟨major, minor, patch⟩ := by
  have hne : numbers a b third ≠ [] := by simp [numbers]
  obtain ⟨hit, hfirst, -, haccepts⟩ := first?_of_prefers (clear_of_no_digit hfront _)
    (prefers_shape ha hb hthird hback) hne
  obtain ⟨a', b', third', heq, ha', hb', hkept⟩ := numbers_of_accepts haccepts
  obtain ⟨rfl, rfl, rfl⟩ := numbers_inj heq ha.notMem_dot hb.notMem_dot ha'.notMem_dot hb'.notMem_dot
  have hmajor : hit.group 1 = a := by rw [Hit.group, Hit.group?, hkept]; rfl
  have hminor : hit.group 2 = b := by rw [Hit.group, Hit.group?, hkept]; rfl
  have hpatch : hit.group? 3 = third := by
    rw [Hit.group?, hkept]
    cases third with
    | none => rfl
    | some c => rfl
  rw [parse?, hfirst, Option.bind_eq_bind, Option.bind_some]
  dsimp only
  rw [hmajor, hminor, hpatch]
  cases third with
  | none => rfl
  | some c => rfl

/-- The version of a banner is known if its numbers fit in 64 bits, a missing one counting as zero. -/
theorem parse?_numerals (hfront : ∀ d ∈ front, Text.isDigit d = false) (ha : IsNumeral a) (hb : IsNumeral b)
    (hthird : ∀ c ∈ third, IsNumeral c) (hback : EndsVersion third back) :
    parse? (front ++ (numbers a b third ++ back))
      = if value a < UInt64.size ∧ value b < UInt64.size ∧ third.elim 0 value < UInt64.size then
          some ⟨value a, value b, third.elim 0 value⟩
        else none := by
  rw [parse?_numbers hfront ha.isRun hb.isRun (fun c hc => (hthird c hc).isRun) hback,
    decimal?_numeral ha, decimal?_numeral hb]
  have hpatch : third.elim (some 0) (Text.decimal? largest)
      = if third.elim 0 value < UInt64.size then some (third.elim 0 value) else none := by
    cases third with
    | none => rfl
    | some c => exact decimal?_numeral (hthird c rfl)
  rw [hpatch]
  by_cases hmajor : value a < UInt64.size
  · by_cases hminor : value b < UInt64.size
    · by_cases hlast : third.elim 0 value < UInt64.size
      · simp only [hmajor, hminor, hlast, and_self, ↓reduceIte]
        rfl
      · simp only [hmajor, hminor, hlast, and_false, ↓reduceIte]
        rfl
    · simp only [hmajor, hminor, false_and, and_false, ↓reduceIte]
      rfl
  · simp only [hmajor, false_and, ↓reduceIte]
    rfl

/-- A banner in which no dot stands between digits names no version. -/
theorem parse?_eq_none (h : ∀ d e, Text.isDigit d → Text.isDigit e → ¬ [d, '.', e] <:+: banner) :
    parse? banner = none := by
  cases hfirst : shape.first? banner with
  | none =>
      rw [parse?, hfirst]
      rfl
  | some found =>
      obtain ⟨front, hit, back⟩ := found
      obtain ⟨rfl, -, haccepts⟩ := accepts_of_first? hfirst
      obtain ⟨a, b, third, htext, ha, hb, -⟩ := numbers_of_accepts haccepts
      obtain rfl | ⟨a, d, rfl⟩ := List.eq_nil_or_concat' a
      · exact absurd rfl ha.1
      · obtain ⟨e, b, rfl⟩ := List.exists_cons_of_ne_nil hb.1
        refine absurd ⟨front ++ a, b ++ (patchPart third ++ back), ?_⟩
          (h d e (ha.2 d (by simp)) (hb.2 e (List.mem_cons_self ..)))
        rw [htext]
        simp [numbers]

-- ======================================================== recent enough

/-- The numbers of a version in the order of their weight. -/
def key (v : Version) : Nat ×ₗ Nat ×ₗ Nat := toLex (v.major, toLex (v.minor, v.patch))

/-- An older version is one that comes earlier. -/
theorem older_iff {v w : Version} : v.older w ↔ v.key < w.key := by
  simp [older, key, Prod.Lex.toLex_lt_toLex]

namespace Installation

variable {found : Installation} {least : Version}

/-- An installation is supported if it is there and its version is known and recent enough. -/
theorem supported_iff : found.supported least = .ok found
    ↔ found.available ∧ ∃ v, found.version = some v ∧ least.key ≤ v.key := by
  obtain ⟨name, version, available⟩ := found
  cases available with
  | false => simp [supported]
  | true =>
      cases version with
      | none => simp [supported]
      | some v => simp [supported, older_iff]

/-- An installation that is not supported is refused for that. -/
theorem supported_or_refused (found : Installation) (least : Version) :
    found.supported least = .ok found ∨ ∃ message, found.supported least = .error (.precondition message) := by
  unfold supported
  split
  · exact .inr ⟨_, rfl⟩
  · split
    · exact .inr ⟨_, rfl⟩
    · split
      · exact .inr ⟨_, rfl⟩
      · exact .inl rfl

end Installation

/-- The version of a banner is read exactly, whatever stands around it, and an installation is supported
exactly if its banner names a version that is not older than the least one. -/
theorem supported_exactly :
    (∀ front a b c back : Text, (∀ d ∈ front, Text.isDigit d = false) → IsNumeral a → IsNumeral b →
        IsNumeral c → (∀ d ∈ back.head?, Text.isDigit d = false) →
      parse? (front ++ (a ++ "." ++ b ++ "." ++ c) ++ back)
        = if value a < UInt64.size ∧ value b < UInt64.size ∧ value c < UInt64.size then some ⟨value a, value b, value c⟩
          else none)
      ∧ (∀ front a b back : Text, (∀ d ∈ front, Text.isDigit d = false) → IsNumeral a → IsNumeral b →
          (∀ d ∈ back.head?, Text.isDigit d = false) → (∀ d, ['.', d] <+: back → Text.isDigit d = false) →
        parse? (front ++ (a ++ "." ++ b) ++ back)
          = if value a < UInt64.size ∧ value b < UInt64.size then some ⟨value a, value b, 0⟩ else none)
      ∧ (∀ banner, (∀ d e, Text.isDigit d → Text.isDigit e → ¬ [d, '.', e] <:+: banner) →
        parse? banner = none)
      ∧ ∀ (name banner : Text) (least : Version),
        let found := Installation.ofBanner name (some banner)
        (found.supported least = .ok found ↔ ∃ v, parse? banner = some v ∧ least.key ≤ v.key)
          ∧ (found.supported least ≠ .ok found →
            ∃ message, found.supported least = .error (.precondition message)) := by
  refine ⟨fun front a b c back hfront ha hb hc hback => ?_, fun front a b back hfront ha hb hback hpoint => ?_,
    fun banner hbanner => parse?_eq_none hbanner, fun name banner least => ?_⟩
  · have hthird : ∀ x ∈ some c, IsNumeral x := fun x hx => Option.some.inj hx ▸ hc
    have hends : EndsVersion (some c) back := ⟨hback, fun hnone => by cases hnone⟩
    have hbanner : front ++ (a ++ "." ++ b ++ "." ++ c) ++ back = front ++ (numbers a b (some c) ++ back) := by
      simp [numbers, patchPart]
    rw [hbanner, parse?_numerals hfront ha hb hthird hends]
    rfl
  · have hends : EndsVersion none back := ⟨hback, fun _ => hpoint⟩
    have hbanner : front ++ (a ++ "." ++ b) ++ back = front ++ (numbers a b none ++ back) := by
      simp [numbers, patchPart]
    have hzero : 0 < UInt64.size := by decide
    rw [hbanner, parse?_numerals hfront ha hb (fun c hc => by cases hc) hends]
    simp only [Option.elim_none, hzero, and_true]
  · intro found
    refine ⟨?_, (Installation.supported_or_refused found least).resolve_left⟩
    rw [Installation.supported_iff]
    exact ⟨fun h => h.2, fun h => ⟨rfl, h⟩⟩

/-- A recent version with more behind it, an older one of two numbers, one with a number that is one too
large, and a banner without any. -/
theorem supported_exactly_seven :
    parse? "Rails 7.1.3.4" = some ⟨7, 1, 3⟩ ∧ parse? "Rails 6.1" = some ⟨6, 1, 0⟩
      ∧ parse? "Rails 7.18446744073709551616" = none ∧ parse? "command not found" = none
      ∧ (Installation.ofBanner "Rails" (some "Rails 7.1.3.4")).supported leastSupported
        = .ok ⟨"Rails", some ⟨7, 1, 3⟩, true⟩
      ∧ ∃ message, (Installation.ofBanner "Rails" (some "Rails 6.1")).supported leastSupported
        = .error (.precondition message) := by
  obtain ⟨hthree, htwo, hnone, hgate⟩ := supported_exactly
  have hrecent : parse? "Rails 7.1.3.4" = some ⟨7, 1, 3⟩ :=
    hthree "Rails " "7" "1" "3" ".4" (by decide) (by decide) (by decide) (by decide) (not_isDigit_of_dot ['4'])
  have hold : parse? "Rails 6.1" = some ⟨6, 1, 0⟩ :=
    htwo "Rails " "6" "1" [] (by decide) (by decide) (by decide) (by simp) (by simp)
  have hlarge : parse? "Rails 7.18446744073709551616" = none :=
    htwo "Rails " "7" "18446744073709551616" [] (by decide) (by decide) (by decide) (by simp) (by simp)
  have hlost : parse? "command not found" = none :=
    hnone _ fun d e _ _ hinside => absurd (hinside.subset (by simp) : '.' ∈ _) (by decide)
  refine ⟨hrecent, hold, hlarge, hlost, ?_, ?_⟩
  · have hfound : Installation.ofBanner "Rails" (some "Rails 7.1.3.4")
        = ⟨"Rails", some ⟨7, 1, 3⟩, true⟩ := by
      rw [Installation.ofBanner, hrecent]
    rw [← hfound]
    exact (hgate "Rails" "Rails 7.1.3.4" leastSupported).1.2 ⟨_, hrecent, by decide⟩
  · refine (hgate "Rails" "Rails 6.1" leastSupported).2 fun hok => ?_
    obtain ⟨v, hv, hle⟩ := (hgate "Rails" "Rails 6.1" leastSupported).1.1 hok
    rw [hold] at hv
    obtain rfl : ⟨6, 1, 0⟩ = v := Option.some.inj hv
    exact absurd hle (by decide)

end SiteScaffold.Version

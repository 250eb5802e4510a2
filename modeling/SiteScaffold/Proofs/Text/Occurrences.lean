/-
How often a text stands in another one, and where it stands first. Occurrences are counted place
by place, so that a text has those of its parts wherever none reaches from one part into the
next (`occurrences_append`). A search finds the first place (`cut?_eq_some_iff`), and for a text
whose first letter does not come again, that is the one in front of which it does not stand
(`cut?_of_occurrences`).
-/
import Mathlib.Data.List.Infix
import SiteScaffold.Proofs.Text.Lines

namespace SiteScaffold.Text

variable {a b needle t x y : Text} {c : Char}

-- ======================================================================== counting

/-- How often a text stands in another one. -/
def occurrences (needle t : Text) : Nat := t.tails.countP (needle.isPrefixOf ·)

theorem occurrences_cons :
    occurrences needle (c :: t) = occurrences needle t + if needle <+: c :: t then 1 else 0 := by
  simp only [occurrences, List.tails_cons, List.countP_cons, List.isPrefixOf_iff_prefix]

theorem occurrences_nil (hne : needle ≠ []) : occurrences needle [] = 0 := by
  simp [occurrences, hne]

theorem occurrences_eq_zero_iff : occurrences needle t = 0 ↔ ¬ needle <:+: t := by
  simp only [occurrences, List.countP_eq_zero, List.mem_tails, List.isPrefixOf_iff_prefix,
    List.infix_iff_prefix_suffix, not_exists, not_and]
  exact forall_congr' fun s => imp_not_comm

/-- A text that starts in a part with a letter at the end that it has at most at its own end lies in
that part. -/
theorem prefix_append_iff (hc : c ∉ needle.dropLast) (hx : x.getLast? = some c) :
    needle <+: x ++ y ↔ needle <+: x := by
  refine ⟨fun h => ?_, fun h => h.trans (List.prefix_append x y)⟩
  rcases List.prefix_or_prefix_of_prefix h (List.prefix_append x y) with hinside | ⟨z, rfl⟩
  · exact hinside
  · cases z with
    | nil => rw [List.append_nil]
    | cons d z =>
        rw [List.dropLast_append_cons, List.mem_append, not_or] at hc
        exact absurd (List.mem_of_getLast? hx) hc.1

/-- None reaches from such a part into the next. -/
theorem occurrences_append (hne : needle ≠ []) (hc : c ∉ needle.dropLast)
    (hx : x.getLast? = some c) :
    occurrences needle (x ++ y) = occurrences needle x + occurrences needle y := by
  induction x with
  | nil => cases hx
  | cons d x ih =>
      have hhere : needle <+: d :: (x ++ y) ↔ needle <+: d :: x := prefix_append_iff hc hx
      rw [List.cons_append, occurrences_cons, occurrences_cons, if_congr hhere rfl rfl]
      cases x with
      | nil => rw [List.nil_append, occurrences_nil hne, Nat.zero_add, Nat.add_comm]
      | cons e x =>
          rw [ih (by simpa using hx)]
          omega

theorem infix_append_iff (hne : needle ≠ []) (hc : c ∉ needle.dropLast) (hx : x.getLast? = some c) :
    needle <:+: x ++ y ↔ needle <:+: x ∨ needle <:+: y := by
  rw [← not_iff_not, not_or, ← occurrences_eq_zero_iff, ← occurrences_eq_zero_iff, ← occurrences_eq_zero_iff,
    occurrences_append hne hc hx]
  exact Nat.add_eq_zero_iff

-- ======================================================================= searching

theorem cutFrom_eq (needle back t : Text) :
    cutFrom needle back t = (cut? needle t).map fun (front, rest) => (back.reverse ++ front, rest) := by
  unfold cut?
  induction t generalizing back with
  | nil =>
      unfold cutFrom
      split
      · simp
      · rfl
  | cons c t ih =>
      rw [cutFrom, cutFrom]
      split
      · simp
      · rw [ih (c :: back), ih [c], Option.map_map]
        congr 1
        funext found
        simp

theorem cut?_cons : cut? needle (c :: t) = match after? needle (c :: t) with
    | some rest => some ([], rest)
    | none => (cut? needle t).map fun (front, rest) => (c :: front, rest) := by
  rw [cut?, cutFrom]
  cases after? needle (c :: t) with
  | some rest => rfl
  | none => exact cutFrom_eq needle [c] t

/-- A search finds the first place. -/
theorem cut?_eq_some_iff : cut? needle t = some (a, b) ↔
    t = a ++ (needle ++ b) ∧ ∀ a' b', t = a' ++ (needle ++ b') → a.length ≤ a'.length := by
  induction t generalizing a with
  | nil =>
      have hnil : cut? needle [] = if needle = [] then some ([], []) else none := rfl
      rw [hnil]
      constructor
      · intro h
        split at h
        · cases h
          exact ⟨by simp [*], by simp⟩
        · cases h
      · rintro ⟨htext, -⟩
        obtain ⟨rfl, hrest⟩ := List.append_eq_nil_iff.1 htext.symm
        obtain ⟨rfl, rfl⟩ := List.append_eq_nil_iff.1 hrest
        rfl
  | cons c t ih =>
      rw [cut?_cons]
      cases hafter : after? needle (c :: t) with
      | some rest =>
          have htext := after?_eq_some_iff.1 hafter
          constructor
          · rintro ⟨⟩
            exact ⟨htext, fun _ _ _ => Nat.zero_le _⟩
          · rintro ⟨htext', hfirst⟩
            obtain rfl := List.length_eq_zero_iff.1 (Nat.le_zero.1 (hfirst [] rest htext))
            rw [htext] at htext'
            rw [List.append_cancel_left htext']
      | none =>
          have hnot : ∀ b', c :: t ≠ needle ++ b' := fun b' htext => by
            rw [after?_eq_some_iff.2 htext] at hafter
            cases hafter
          simp only [Option.map_eq_some_iff, Prod.exists]
          constructor
          · rintro ⟨front, rest, hcut, ⟨⟩⟩
            obtain ⟨rfl, hfirst⟩ := ih.1 hcut
            refine ⟨rfl, fun a' b' htext => ?_⟩
            cases a' with
            | nil => exact absurd htext (hnot b')
            | cons d a' =>
                obtain ⟨-, htail⟩ := List.cons_eq_cons.1 htext
                exact Nat.succ_le_succ (hfirst a' b' htail)
          · rintro ⟨htext, hfirst⟩
            cases a with
            | nil => exact absurd htext (hnot b)
            | cons d a =>
                obtain ⟨rfl, rfl⟩ := List.cons_eq_cons.1 htext
                refine ⟨a, b, ih.2 ⟨rfl, fun a' b' htext' => ?_⟩, rfl⟩
                exact Nat.le_of_succ_le_succ (hfirst (c :: a') b' (by rw [htext']; rfl))

/-- So it does not stand in front of the place found. -/
theorem not_infix_of_cut? (hne : needle ≠ []) (h : cut? needle t = some (a, b)) : ¬ needle <:+: a := by
  obtain ⟨htext, hfirst⟩ := cut?_eq_some_iff.1 h
  rintro ⟨u, v, rfl⟩
  have hlength := hfirst u (v ++ (needle ++ b)) (by rw [htext]; simp)
  have hpos := List.length_pos_iff.2 hne
  simp only [List.length_append] at hlength
  omega

theorem contains_iff : contains t needle = true ↔ needle <:+: t := by
  rw [contains, Option.isSome_iff_exists]
  constructor
  · rintro ⟨⟨a, b⟩, hcut⟩
    obtain ⟨rfl, -⟩ := cut?_eq_some_iff.1 hcut
    exact ⟨a, b, List.append_assoc ..⟩
  · rintro ⟨a, b, htext⟩
    induction t generalizing a with
    | nil =>
        obtain ⟨hfront, rfl⟩ := List.append_eq_nil_iff.1 htext
        obtain ⟨rfl, rfl⟩ := List.append_eq_nil_iff.1 hfront
        exact ⟨([], []), rfl⟩
    | cons c t ih =>
        rw [cut?_cons]
        cases hafter : after? needle (c :: t) with
        | some rest => exact ⟨_, rfl⟩
        | none =>
            cases a with
            | nil =>
                have hstarts : c :: t = needle ++ b := htext.symm
                rw [after?_eq_some_iff.2 hstarts] at hafter
                cases hafter
            | cons d a =>
                obtain ⟨found, hfound⟩ := ih a (List.cons_eq_cons.1 htext).2
                exact ⟨_, by rw [hfound]; rfl⟩

/-- A text whose first letter does not come again is found behind a text in which it does not
stand. -/
theorem cut?_of_occurrences {n : Text} (hc : c ∉ n) (h : ¬ (c :: n) <:+: a) :
    cut? (c :: n) (a ++ ((c :: n) ++ b)) = some (a, b) := by
  refine cut?_eq_some_iff.2 ⟨rfl, fun a' b' htext => Nat.le_of_not_lt fun hlt => h ?_⟩
  obtain ⟨z, rfl, hz⟩ : ∃ z, a = a' ++ z ∧ (c :: n) ++ b' = z ++ ((c :: n) ++ b) := by
    rcases List.append_eq_append_iff.1 htext with ⟨z, rfl, -⟩ | ⟨z, rfl, hz⟩
    · rw [List.length_append] at hlt
      omega
    · exact ⟨z, rfl, hz⟩
  cases z with
  | nil => simp at hlt
  | cons d z =>
      obtain ⟨rfl, hcut⟩ := List.cons_eq_cons.1 hz
      obtain ⟨y, rfl, -⟩ := exists_append_of_notMem hcut.symm hc
      exact ⟨a', y, by simp⟩

theorem replaceFirst_of_cut? {new : Text} (h : cut? needle t = some (a, b)) :
    replaceFirst needle new t = a ++ (new ++ b) := by
  rw [replaceFirst, h]
  exact List.append_assoc ..

end SiteScaffold.Text

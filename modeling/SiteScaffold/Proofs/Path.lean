/-
Paths put together. What is joined to a folder comes after its steps
(`exists_segments_join`), and the parent of a path with a name at its end is the path
without it (`parent?_child`).
-/
import Mathlib.Data.List.Basic
import SiteScaffold.Path

namespace SiteScaffold

-- ==================================================================== pieces

namespace Text

variable {sep : Char} {s t : Text}

theorem split_nil (sep : Char) : split sep [] = [[]] := rfl

theorem split_sep (sep : Char) (t : Text) : split sep (sep :: t) = [] :: split sep t := by
  show (if sep = sep then _ else _) = _
  rw [if_pos rfl]
  rfl

theorem split_cons {c : Char} (hc : c ≠ sep) (t : Text) :
    split sep (c :: t) = consFirst c (split sep t) := by
  show (if c = sep then _ else _) = _
  rw [if_neg hc]
  rfl

theorem split_ne_nil (sep : Char) (t : Text) : split sep t ≠ [] := by
  cases t with
  | nil => simp [split_nil]
  | cons c t =>
      by_cases hc : c = sep
      · rw [hc, split_sep]
        simp
      · rw [split_cons hc]
        cases split sep t with
        | nil => simp [consFirst]
        | cons piece pieces => simp [consFirst]

/-- The pieces of two texts with the separator between them. -/
theorem split_append (sep : Char) (s t : Text) :
    split sep (s ++ sep :: t) = split sep s ++ split sep t := by
  induction s with
  | nil => exact split_sep sep t
  | cons c s ih =>
      rw [List.cons_append]
      by_cases hc : c = sep
      · rw [hc, split_sep, split_sep, ih]
        rfl
      · rw [split_cons hc, split_cons hc, ih]
        obtain ⟨piece, pieces, heq⟩ := List.exists_cons_of_ne_nil (split_ne_nil sep s)
        rw [heq]
        rfl

/-- A text without the separator is one piece. -/
theorem split_of_notMem (h : sep ∉ t) : split sep t = [t] := by
  induction t with
  | nil => rfl
  | cons c t ih =>
      obtain ⟨hc, ht⟩ := not_or.1 (mt List.mem_cons.2 h)
      rw [split_cons (Ne.symm hc), ih ht]
      rfl

/-- The pieces with the separator between them are the text. -/
theorem join_split (sep : Char) (t : Text) : join [sep] (split sep t) = t := by
  induction t with
  | nil => rfl
  | cons c t ih =>
      obtain ⟨piece, pieces, heq⟩ := List.exists_cons_of_ne_nil (split_ne_nil sep t)
      by_cases hc : c = sep
      · rw [hc, split_sep]
        rw [heq] at ih ⊢
        rw [← ih]
        rfl
      · rw [split_cons hc]
        rw [heq] at ih ⊢
        rw [← ih]
        cases pieces with
        | nil => rfl
        | cons next pieces => rfl

theorem byteSize_append (s t : Text) : byteSize (s ++ t) = byteSize s + byteSize t := by
  have hfrom : ∀ (t : Text) (n : Nat),
      t.foldl (fun n c => n + c.utf8Size) n = n + byteSize t := by
    intro t
    induction t with
    | nil => exact fun n => rfl
    | cons c t ih =>
        intro n
        unfold byteSize at ih ⊢
        rw [List.foldl_cons, List.foldl_cons, ih (n + c.utf8Size), ih (0 + c.utf8Size)]
        omega
  show (s ++ t).foldl (fun n c => n + c.utf8Size) 0 = _
  rw [List.foldl_append, hfrom t]
  rfl

end Text

namespace Path

variable {base name relative path : Text} {steps : List Text} {step : Text}

/-- Whether a step names an entry, if it is not too long. -/
structure IsName (step : Text) : Prop where
  idle : isIdle step = false
  up : step ≠ ".."

theorem IsName.not_nil (h : IsName step) : step ≠ [] := by
  rintro rfl
  cases h.idle

theorem IsName.part (h : IsName step) : Part.ofSegment step = .name step := if_neg h.up

-- ================================================================ joined to a folder

/-- What a path relative to a folder is put behind. -/
def stem (base : Text) : Text :=
  if base = [] || base.getLast? = some '/' then base else base ++ ['/']

theorem join_eq (h : isAbsolute relative = false) : join base relative = stem base ++ relative := by
  unfold join stem
  rw [if_neg (by simp [h])]
  split
  · rfl
  · rfl

/-- A path joined to a folder has its steps behind those of the folder. -/
theorem exists_segments_stem (base : Text) :
    ∃ steps, ∀ relative, segments (stem base ++ relative) = steps ++ segments relative := by
  by_cases hnil : base = []
  · exact ⟨[], fun relative => by rw [hnil]; rfl⟩
  · have hslash : ∃ s, stem base = s ++ ['/'] := by
      unfold stem
      split
      next h =>
        obtain ⟨s, c, rfl⟩ := List.eq_nil_or_concat' base |>.resolve_left hnil
        have hc : c = '/' := by simpa using h
        exact ⟨s, by rw [hc]⟩
      next h => exact ⟨base, rfl⟩
    obtain ⟨s, hs⟩ := hslash
    refine ⟨segments s, fun relative => ?_⟩
    rw [hs, List.append_assoc]
    exact Text.split_append '/' s relative

/-- A name behind a folder. -/
def child (base name : Text) : Text := base ++ '/' :: name

theorem segments_child (h : '/' ∉ name) : segments (child base name) = segments base ++ [name] := by
  rw [segments, child, Text.split_append, Text.split_of_notMem h]
  rfl

theorem join_child (h : isAbsolute name = false) (hne : base ≠ []) (hlast : base.getLast? ≠ some '/') :
    join base name = child base name := by
  rw [join_eq h, stem, if_neg (by simp [hne, hlast]), child, List.append_assoc]
  rfl

-- ===================================================================== above a name

/-- The parts of a path that ends in two names. -/
theorem parts_reverse (hsegments : segments path = steps ++ [step] ++ [name]) (hstep : IsName step)
    (hname : IsName name) : ∃ more, (parts path).reverse = .name name :: .name step :: more := by
  obtain ⟨front, hnamed⟩ : ∃ front, ((segments path).filter (!isIdle ·)).map Part.ofSegment
      = front ++ [.name step] ++ [.name name] := by
    refine ⟨(steps.filter (!isIdle ·)).map Part.ofSegment, ?_⟩
    simp [hsegments, hstep.idle, hname.idle, hstep.part, hname.part]
  simp only [parts, hnamed]
  split
  · exact ⟨front.reverse ++ [.root], by simp⟩
  · split
    · exact ⟨front.reverse ++ [.here], by simp⟩
    · exact ⟨front.reverse, by simp⟩

/-- Steps that are not all idle do not go away with the idle ones in front. -/
theorem isEmpty_dropWhile_isIdle (hmem : step ∈ steps) (hstep : isIdle step = false) :
    (steps.dropWhile isIdle).isEmpty = false := by
  cases hempty : steps.dropWhile isIdle with
  | cons c rest => rfl
  | nil =>
      have hall : steps.takeWhile isIdle = steps := by
        have hsplit := List.takeWhile_append_dropWhile (p := isIdle) (l := steps)
        rwa [hempty, List.append_nil] at hsplit
      have hidle : isIdle step := List.all_eq_true.1 List.all_takeWhile step (hall.symm ▸ hmem)
      rw [hstep] at hidle
      cases hidle

/-- The parent of a name behind a folder is the folder. -/
theorem parent?_child (hsteps : segments base = steps ++ [step]) (hstep : IsName step)
    (hname : IsName name) (hslash : '/' ∉ name) : parent? (child base name) = some base := by
  have hsegments : segments (child base name) = steps ++ [step] ++ [name] := by
    rw [segments_child hslash, hsteps]
  obtain ⟨more, hparts⟩ := parts_reverse hsegments hstep hname
  have hback : ((segments (child base name)).reverse.dropWhile isIdle).drop 1
      = step :: steps.reverse := by
    rw [hsegments]
    simp [hname.idle]
  have hfront : ((step :: steps.reverse).dropWhile isIdle).reverse = segments base := by
    rw [hsteps, List.dropWhile_cons_of_neg (by simp [hstep.idle])]
    simp
  have hany : ((segments base).dropWhile isIdle).isEmpty = false :=
    isEmpty_dropWhile_isIdle (by rw [hsteps]; simp) hstep.idle
  unfold parent?
  rw [hparts]
  simp only [hback, hfront, hany, Bool.and_false, Bool.false_eq_true, if_false]
  rw [segments, Text.join_split]

/-- A path with a step at its end has no slash there. -/
theorem getLast?_ne_slash_of_step (hsegments : segments path = steps ++ [step]) (hstep : step ≠ []) :
    path.getLast? ≠ some '/' := by
  intro hslash
  obtain ⟨s, rfl⟩ := List.getLast?_eq_some_iff.1 hslash
  rw [segments, Text.split_append '/' s []] at hsegments
  obtain ⟨-, hlast⟩ := List.append_inj' hsegments rfl
  cases hlast
  exact absurd rfl hstep

theorem getLast?_ne_slash (hsegments : segments path = steps ++ [name]) (hname : IsName name) :
    path.getLast? ≠ some '/' :=
  getLast?_ne_slash_of_step hsegments hname.not_nil

theorem ne_nil_of_step (hsegments : segments path = steps ++ [step]) (hstep : step ≠ []) : path ≠ [] := by
  rintro rfl
  have hempty : [] ++ [[]] = steps ++ [step] := hsegments
  obtain ⟨-, hlast⟩ := List.append_inj' hempty rfl
  cases hlast
  exact absurd rfl hstep

theorem segments_ne_nil (path : Text) : segments path ≠ [] := Text.split_ne_nil '/' path

theorem ne_nil_of_segments (hsegments : segments path = steps ++ [name]) (hname : IsName name) :
    path ≠ [] :=
  ne_nil_of_step hsegments hname.not_nil

/-- It is bare. -/
theorem bare_of_step (hsegments : segments path = steps ++ [step]) (hstep : step ≠ []) : bare path = path := by
  obtain ⟨s, c, rfl⟩ := List.eq_nil_or_concat' path |>.resolve_left (ne_nil_of_step hsegments hstep)
  have hc := getLast?_ne_slash_of_step hsegments hstep
  rw [List.getLast?_concat] at hc
  unfold bare
  rw [List.reverse_append, List.reverse_singleton, List.singleton_append,
    List.dropWhile_cons_of_neg (by simpa using hc)]
  simp

theorem bare_eq (hsegments : segments path = steps ++ [name]) (hname : IsName name) :
    bare path = path :=
  bare_of_step hsegments hname.not_nil

theorem endsInSlash_eq (hsegments : segments path = steps ++ [name]) (hname : IsName name) :
    endsInSlash path = false :=
  decide_eq_false (getLast?_ne_slash hsegments hname)

end Path

end SiteScaffold

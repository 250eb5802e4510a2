/-
Paths as they are spelled. Between the names of a path there may be any number of slashes
and dots, and slashes at its end; the names alone decide what its parts are (`parts_eq`).

Without the slashes it ends in (`bare`) a path has the same names and ends in a step that is
not empty (`exists_bare`).
-/
import SiteScaffold.Proofs.Path.Under

namespace SiteScaffold.Path

variable {path : Text}

-- ============================================================================ names

theorem namesOf_empty (n : Nat) : namesOf (List.replicate n []) = [] := by
  rw [namesOf, List.filter_eq_nil_iff]
  intro step hstep
  rw [List.eq_of_mem_replicate hstep]
  decide

theorem isPlain_of_mem_namesOf {name : Text} (hup : "..".toList ∉ segments path)
    (h : name ∈ namesOf (segments path)) : IsPlain name := by
  obtain ⟨hmem, hidle⟩ := List.mem_filter.1 h
  refine ⟨⟨by simpa using hidle, fun heq => hup (heq ▸ hmem)⟩, Text.notMem_of_mem_split hmem⟩

/-- The parts of a path that goes neither up nor to the root nor starts here are its
names. -/
theorem parts_eq (habsolute : isAbsolute path = false) (hhere : (segments path).head? ≠ some ['.'])
    (hup : "..".toList ∉ segments path) : parts path = (namesOf (segments path)).map .name := by
  rw [parts_def, habsolute, if_neg Bool.false_ne_true, if_neg hhere]
  exact List.map_congr_left fun name hname => (isPlain_of_mem_namesOf hup hname).part

-- ================================================================== slashes at the end

theorem segments_slashes (n : Nat) : segments (List.replicate n '/') = List.replicate (n + 1) [] := by
  induction n with
  | zero => rfl
  | succ n ih =>
      rw [List.replicate_succ, segments, Text.split_sep, ← segments, ih]
      rfl

/-- A path with a name in it, without the slashes that it ends in. -/
theorem exists_bare (hnames : namesOf (segments path) ≠ []) :
    (∃ n, path = bare path ++ List.replicate n '/') ∧ (∀ front, bare (front ++ path) = front ++ bare path)
      ∧ ∃ c t, bare path = t ++ [c] ∧ c ≠ '/' := by
  have hback : path.reverse.dropWhile (· = '/') ≠ [] := by
    intro hnil
    have hall : ∀ c ∈ path, c = '/' := by
      have htake := List.takeWhile_append_dropWhile (p := (· = '/')) (l := path.reverse)
      rw [hnil, List.append_nil] at htake
      intro c hc
      have hmem : c ∈ path.reverse.takeWhile (· = '/') := htake.symm ▸ List.mem_reverse.2 hc
      simpa using List.all_eq_true.1 List.all_takeWhile c hmem
    refine hnames ?_
    have hpath : path = List.replicate path.length '/' := List.eq_replicate_iff.2 ⟨rfl, hall⟩
    rw [hpath, segments_slashes, namesOf_empty]
  obtain ⟨c, back, hcons⟩ := List.exists_cons_of_ne_nil hback
  have hbare : ∀ (p : Text) (b : Text), p.reverse.dropWhile (· = '/') = c :: b → bare p = (c :: b).reverse := by
    intro p b h
    unfold bare
    rw [h]
  refine ⟨⟨(path.reverse.takeWhile (· = '/')).length, ?_⟩, fun front => ?_, c, back.reverse, ?_, ?_⟩
  · have hsplit := List.takeWhile_append_dropWhile (p := (· = '/')) (l := path.reverse)
    have hslashes : path.reverse.takeWhile (· = '/')
        = List.replicate (path.reverse.takeWhile (· = '/')).length '/' := by
      refine List.eq_replicate_iff.2 ⟨rfl, fun d hd => ?_⟩
      simpa using List.all_eq_true.1 List.all_takeWhile d hd
    rw [hbare path back hcons, ← hcons]
    calc path = path.reverse.reverse := (List.reverse_reverse path).symm
      _ = (path.reverse.takeWhile (· = '/') ++ path.reverse.dropWhile (· = '/')).reverse := by rw [hsplit]
      _ = _ := by
        rw [List.reverse_append]
        congr 1
        rw [hslashes]
        simp
  · have hfront : (front ++ path).reverse.dropWhile (· = '/') = c :: (back ++ front.reverse) := by
      rw [List.reverse_append, List.dropWhile_append, hcons]
      rfl
    rw [hbare _ _ hfront, hbare path back hcons]
    simp
  · rw [hbare path back hcons, List.reverse_cons]
  · intro hc
    have hfirst := List.head?_dropWhile_not (· = '/') path.reverse
    rw [hcons] at hfirst
    simp [hc] at hfirst

/-- Only empty steps go with the slashes. -/
theorem segments_bare (hnames : namesOf (segments path) ≠ []) :
    ∃ n, segments path = segments (bare path) ++ List.replicate n [] := by
  obtain ⟨⟨n, hpath⟩, -, -⟩ := exists_bare hnames
  cases n with
  | zero =>
      rw [List.replicate_zero, List.append_nil] at hpath
      exact ⟨0, by rw [← hpath, List.replicate_zero, List.append_nil]⟩
  | succ n =>
      refine ⟨n + 1, ?_⟩
      rw [List.replicate_succ] at hpath
      rw [← segments_slashes]
      exact (congrArg segments hpath).trans (Text.split_append '/' _ _)

theorem namesOf_bare (hnames : namesOf (segments path) ≠ []) :
    namesOf (segments (bare path)) = namesOf (segments path) := by
  obtain ⟨n, hsegments⟩ := segments_bare hnames
  rw [hsegments, namesOf_append, namesOf_empty, List.append_nil]

/-- The step that is last then is not empty. -/
theorem getLast?_segments_bare (hnames : namesOf (segments path) ≠ []) :
    ∃ step, (segments (bare path)).getLast? = some step ∧ step ≠ [] := by
  obtain ⟨-, -, c, t, hbare, hc⟩ := exists_bare hnames
  obtain ⟨front, step, hlast⟩ := List.eq_nil_or_concat' (segments (bare path)) |>.resolve_left
    (Text.split_ne_nil '/' _)
  refine ⟨step, by rw [hlast, List.getLast?_concat], ?_⟩
  rintro rfl
  have hjoin : Text.join ['/'] (front ++ [[]]) = t ++ [c] := by
    rw [← hlast, ← hbare]
    exact Text.join_split '/' (bare path)
  by_cases hfront : front = []
  · rw [hfront] at hjoin
    simp [Text.join, List.intercalate] at hjoin
  · rw [Text.join_concat '/' hfront] at hjoin
    obtain ⟨-, hslash⟩ := List.append_inj' hjoin rfl
    exact hc (List.cons_eq_cons.1 hslash).1.symm

-- ============================================================== paths that go below

/-- Whether a path goes on below the folder it is taken from: it does not start at the root,
does not go up, and goes on by some name. -/
structure Descends (path : Text) : Prop where
  relative : isAbsolute path = false
  up : "..".toList ∉ segments path
  names : namesOf (segments path) ≠ []

namespace Descends

theorem segments_join (h : Descends path) (base : Text) :
    segments (join base path) = lead base ++ segments path := by
  rw [join_eq h.relative, segments_stem]

/-- So does the path without the slashes that it ends in, by the same names. -/
theorem bare (h : Descends path) : Descends (bare path) where
  relative := by
    obtain ⟨⟨n, hpath⟩, -, c, t, hbare, hc⟩ := exists_bare h.names
    have hrelative := h.relative
    rw [hpath, hbare] at hrelative
    rw [hbare]
    cases t with
    | nil => exact hrelative
    | cons d t => exact hrelative
  up := by
    obtain ⟨n, hsegments⟩ := segments_bare h.names
    exact fun hmem => h.up (hsegments ▸ List.mem_append_left _ hmem)
  names := by
    rw [namesOf_bare h.names]
    exact h.names

theorem bare_join (h : Descends path) (base : Text) :
    Path.bare (join base path) = join base (Path.bare path) := by
  obtain ⟨-, hfront, -⟩ := exists_bare h.names
  rw [join_eq h.relative, join_eq h.bare.relative, hfront]

theorem bare_prefix (h : Descends path) (base : Text) :
    join base (Path.bare path) <+: join base path ∧ join base (Path.bare path) ≠ [] := by
  obtain ⟨⟨n, hpath⟩, -, c, t, hbare, -⟩ := exists_bare h.names
  rw [join_eq h.relative, join_eq h.bare.relative]
  refine ⟨⟨List.replicate n '/', ?_⟩, by simp [hbare]⟩
  rw [List.append_assoc, ← hpath]

/-- The step that is last is a name, if it is no dot. -/
theorem exists_last (h : Descends path) (base : Text)
    (hlast : (segments (Path.bare path)).getLast? ≠ some ['.']) :
    ∃ name, (segments (Path.bare (join base path))).getLast? = some name ∧ IsName name := by
  obtain ⟨step, hstep, hne⟩ := getLast?_segments_bare h.names
  refine ⟨step, ?_, ?_, ?_⟩
  · rw [h.bare_join, h.bare.segments_join, List.getLast?_append, hstep]
    rfl
  · have hdot : step ≠ ['.'] := fun heq => hlast (heq ▸ hstep)
    simp [isIdle, hne, hdot]
  · exact fun heq => h.bare.up (heq ▸ List.mem_of_getLast? hstep)

end Descends

end SiteScaffold.Path

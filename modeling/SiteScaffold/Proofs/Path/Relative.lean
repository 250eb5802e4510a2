/-
Paths as they are seen from one another. The parts of a path are those of its steps
(`parts_eq_partsOf`), so the parent of a path that ends in a name has all parts but the last, however
the path is spelled (`parts_parent?`), and with another name in its place the path leads beside it
(`parts_withFileName`).

Seen from a folder, a path that goes on below it by names is these names, written with slashes
(`below?_under`), and the path of the folder itself is nothing (`below?_self`).
-/
import SiteScaffold.Proofs.Path.Spelled

namespace SiteScaffold.Path

variable {base name path step : Text} {front idles names rest steps : List Text}

-- ====================================================================== parts of steps

/-- The parts that steps stand for. -/
def partsOf (steps : List Text) : List Part :=
  if steps.head? = some [] ∧ steps.tail ≠ [] then .root :: (namesOf steps).map Part.ofSegment
  else if steps.head? = some ['.'] then .here :: (namesOf steps).map Part.ofSegment
  else (namesOf steps).map Part.ofSegment

/-- The steps of a path that starts at the root start with an empty one, and go on. -/
theorem isAbsolute_iff :
    isAbsolute path = true ↔ (segments path).head? = some [] ∧ (segments path).tail ≠ [] := by
  cases path with
  | nil => exact iff_of_false (by decide) fun h => h.2 rfl
  | cons c rest =>
      by_cases hc : c = '/'
      · rw [hc, segments, Text.split_sep]
        exact iff_of_true rfl ⟨rfl, Text.split_ne_nil '/' rest⟩
      · obtain ⟨piece, pieces, hpieces⟩ := List.exists_cons_of_ne_nil (Text.split_ne_nil '/' rest)
        have hsegments : segments (c :: rest) = (c :: piece) :: pieces := by
          rw [segments, Text.split_cons hc, hpieces]
          rfl
        rw [hsegments]
        exact iff_of_false (by simp [isAbsolute, hc]) (by simp)

theorem parts_eq_partsOf (path : Text) : parts path = partsOf (segments path) := by
  rw [parts_def, partsOf]
  by_cases habsolute : isAbsolute path = true
  · rw [if_pos habsolute, if_pos (isAbsolute_iff.1 habsolute)]
  · rw [if_neg habsolute, if_neg fun h => habsolute (isAbsolute_iff.2 h)]

theorem parts_join_steps (hne : steps ≠ []) (hslash : ∀ step ∈ steps, '/' ∉ step) :
    parts (Text.join ['/'] steps) = partsOf steps := by
  rw [parts_eq_partsOf, segments, Text.split_join hne hslash]

/-- The parts of steps go on with those of the steps behind one that is not idle. -/
theorem partsOf_append (hstep : isIdle step = false) : partsOf (front ++ step :: rest)
    = partsOf (front ++ [step]) ++ (namesOf rest).map Part.ofSegment := by
  have hnames : namesOf (front ++ step :: rest) = namesOf (front ++ [step]) ++ namesOf rest := by
    rw [List.append_cons, namesOf_append]
  unfold partsOf
  rw [hnames, List.map_append]
  cases front with
  | nil =>
      have hempty : step ≠ [] := fun h => by rw [h] at hstep; cases hstep
      have hdot : step ≠ ['.'] := fun h => by rw [h] at hstep; cases hstep
      simp [hempty, hdot]
  | cons first front =>
      simp only [List.cons_append, List.head?_cons, List.tail_cons, Option.some.injEq]
      by_cases hfirst : first = []
      · simp [hfirst]
      · by_cases hdot : first = ['.']
        · simp [hdot]
        · simp [hfirst, hdot]

theorem ofSegment_ne_here : Part.ofSegment step ≠ .here := by
  unfold Part.ofSegment
  split
  · simp
  · simp

/-- The last of them is that of the last step. -/
theorem getLast?_partsOf (hstep : isIdle step = false) :
    (partsOf (front ++ [step])).getLast? = some (Part.ofSegment step) := by
  have hnames : (namesOf (front ++ [step])).map Part.ofSegment
      = (namesOf front).map Part.ofSegment ++ [Part.ofSegment step] := by
    rw [namesOf_append, namesOf_name (by simp [hstep]), List.map_append]
    rfl
  unfold partsOf
  rw [hnames]
  split
  · rw [← List.cons_append, List.getLast?_concat]
  · split
    · rw [← List.cons_append, List.getLast?_concat]
    · rw [List.getLast?_concat]

theorem namesOf_idles (hidles : ∀ step ∈ idles, isIdle step) : namesOf idles = [] :=
  List.filter_eq_nil_iff.2 fun step hstep => by simp [hidles step hstep]

/-- Steps with a name among them, up to the last one that is not idle. -/
theorem exists_last_step (h : namesOf steps ≠ []) :
    ∃ front step idles, steps = front ++ step :: idles ∧ isIdle step = false ∧ ∀ s ∈ idles, isIdle s := by
  have hback : steps.reverse = steps.reverse.takeWhile isIdle ++ steps.reverse.dropWhile isIdle :=
    List.takeWhile_append_dropWhile.symm
  have hidles : ∀ s ∈ steps.reverse.takeWhile isIdle, isIdle s := fun s hs =>
    List.all_eq_true.1 List.all_takeWhile s hs
  cases hcut : steps.reverse.dropWhile isIdle with
  | nil =>
      rw [hcut, List.append_nil] at hback
      rw [← hback] at hidles
      exact absurd (namesOf_idles fun s hs => hidles s (List.mem_reverse.2 hs)) h
  | cons step back =>
      have hstep : isIdle step = false := by
        have hhead := List.head?_dropWhile_not isIdle steps.reverse
        rw [hcut] at hhead
        simpa using hhead
      refine ⟨back.reverse, step, (steps.reverse.takeWhile isIdle).reverse, ?_, hstep, fun s hs =>
        hidles s (List.mem_reverse.1 hs)⟩
      have hsteps := congrArg List.reverse hback
      rw [hcut, List.reverse_reverse] at hsteps
      simpa using hsteps

-- ====================================================================== above and beside

/-- The parent of a path, by the steps before its name. -/
theorem parent?_eq (more : List Part) (hsegments : segments path = front ++ name :: idles)
    (hname : IsName name) (hidles : ∀ s ∈ idles, isIdle s)
    (hparts : (parts path).reverse = .name name :: more) (hmore : more ≠ [.here]) :
    parent? path = some (if isAbsolute path && ((front.reverse.dropWhile isIdle).reverse.dropWhile isIdle).isEmpty
      then ['/'] else Text.join ['/'] (front.reverse.dropWhile isIdle).reverse) := by
  have hback : ((segments path).reverse.dropWhile isIdle).drop 1 = front.reverse := by
    rw [hsegments, List.reverse_append, List.reverse_cons, List.append_assoc,
      List.dropWhile_append_of_pos fun s hs => hidles s (List.mem_reverse.1 hs)]
    simp [hname.idle]
  unfold parent?
  rw [hparts]
  match more, hmore with
  | [], _ | .root :: _, _ | .up :: _, _ | .name _ :: _, _ | .here :: _ :: _, _ => simp only [hback]

/-- The parent of a path that ends in a name has all parts but the name. -/
theorem parts_parent? (hsegments : segments path = front ++ name :: idles) (hname : IsName name)
    (hidles : ∀ s ∈ idles, isIdle s) : ∃ p, parent? path = some p ∧ parts path = parts p ++ [.name name] := by
  have hlast : namesOf (name :: idles) = [name] := by
    rw [namesOf_name (by simp [hname.idle]), namesOf_idles hidles]
  by_cases hfront : namesOf front = []
  · -- nothing but where the path starts is in front of the name
    have htrimmed : (front.reverse.dropWhile isIdle).reverse = [] := by
      have hall : ∀ s ∈ front.reverse, isIdle s := fun s hs => by
        simpa using List.filter_eq_nil_iff.1 hfront s (List.mem_reverse.1 hs)
      simpa using @List.dropWhile_append_of_pos _ isIdle front.reverse [] hall
    have hparts := parts_def path
    rw [hsegments, namesOf_append, hfront, hlast, List.nil_append, List.map_singleton, hname.part] at hparts
    by_cases habsolute : isAbsolute path = true
    · rw [if_pos habsolute] at hparts
      refine ⟨['/'], ?_, hparts⟩
      rw [parent?_eq [.root] hsegments hname hidles (by rw [hparts]; rfl) (by simp), habsolute, htrimmed]
      rfl
    · rw [if_neg habsolute] at hparts
      by_cases hhere : (front ++ name :: idles).head? = some ['.']
      · rw [if_pos hhere] at hparts
        refine ⟨['.'], ?_, hparts⟩
        unfold parent?
        rw [hparts]
        rfl
      · rw [if_neg hhere] at hparts
        refine ⟨[], ?_, hparts⟩
        rw [parent?_eq [] hsegments hname hidles (by rw [hparts]; rfl) (by simp), htrimmed,
          if_neg (by simp [habsolute])]
        rfl
  · obtain ⟨before, step, idles', rfl, hstep, hidles'⟩ := exists_last_step hfront
    have htrimmed : ((before ++ step :: idles').reverse.dropWhile isIdle).reverse = before ++ [step] := by
      rw [List.reverse_append, List.reverse_cons, List.append_assoc,
        List.dropWhile_append_of_pos fun s hs => hidles' s (List.mem_reverse.1 hs)]
      simp [hstep]
    have hparts : parts path = partsOf (before ++ [step]) ++ [.name name] := by
      rw [parts_eq_partsOf, hsegments, List.append_assoc, List.cons_append, partsOf_append hstep, namesOf_append,
        namesOf_idles hidles', hlast, List.nil_append, List.map_singleton, hname.part]
    have hslash : ∀ s ∈ before ++ [step], '/' ∉ s := by
      intro s hs
      refine Text.notMem_of_mem_split (t := path) ?_
      rw [← segments, hsegments]
      rcases List.mem_append.1 hs with hs | hs
      · simp [hs]
      · simp [List.mem_singleton.1 hs]
    have hmore : (partsOf (before ++ [step])).reverse ≠ [.here] := by
      intro hhere
      have hlast : (partsOf (before ++ [step])).getLast? = some (Part.ofSegment step) := getLast?_partsOf hstep
      rw [List.getLast?_eq_head?_reverse, hhere] at hlast
      exact ofSegment_ne_here (Option.some.inj hlast).symm
    refine ⟨Text.join ['/'] (before ++ [step]), ?_, ?_⟩
    · rw [parent?_eq (partsOf (before ++ [step])).reverse hsegments hname hidles
        (by rw [hparts]; simp) hmore, htrimmed, isEmpty_dropWhile_isIdle (List.mem_concat_self ..) hstep,
        Bool.and_false, if_neg Bool.false_ne_true]
    · rw [parts_join_steps (by simp) hslash, hparts]

theorem fileName?_last (hsegments : segments path = front ++ name :: idles) (hname : IsName name)
    (hidles : ∀ s ∈ idles, isIdle s) : fileName? path = some name := by
  obtain ⟨p, -, hparts⟩ := parts_parent? hsegments hname hidles
  rw [fileName?, hparts, List.getLast?_concat]

/-- With another name at its end a path leads beside where it led. -/
theorem parts_withFileName (hsegments : segments path = front ++ name :: idles) (hname : IsName name)
    (hidles : ∀ s ∈ idles, isIdle s) : ∃ p, parts path = parts p ++ [.name name]
      ∧ ∀ other, IsPlain other → withFileName path other = join p other
        ∧ parts (withFileName path other) = parts p ++ [.name other] := by
  obtain ⟨p, hparent, hparts⟩ := parts_parent? hsegments hname hidles
  refine ⟨p, hparts, fun other hother => ?_⟩
  have hjoin : withFileName path other = join p other := by
    rw [withFileName, fileName?_last hsegments hname hidles, hparent]
    rfl
  rw [hjoin, ← under_singleton, parts_under (by simp) (by simpa using hother)]
  exact ⟨rfl, rfl⟩

-- ==================================================================== seen from a folder

/-- Taking its names from the front of steps leaves nothing but idle ones of them. -/
theorem afterNames?_append (steps rest : List Text) :
    ∃ idles, (∀ s ∈ idles, isIdle s) ∧ afterNames? (namesOf steps) (steps ++ rest) = some (idles ++ rest) := by
  induction steps with
  | nil =>
      refine ⟨[], by simp, ?_⟩
      cases rest <;> rfl
  | cons step steps ih =>
      obtain ⟨idles, hidles, hafter⟩ := ih
      by_cases hidle : isIdle step = true
      · rw [namesOf_idle hidle]
        cases hnames : namesOf steps with
        | nil =>
            refine ⟨step :: steps, fun s hs => ?_, rfl⟩
            rcases List.mem_cons.1 hs with rfl | hs
            · exact hidle
            · simpa using List.filter_eq_nil_iff.1 hnames s hs
        | cons name names =>
            rw [hnames] at hafter
            refine ⟨idles, hidles, ?_⟩
            rw [List.cons_append, afterNames?, if_pos hidle, hafter]
      · refine ⟨idles, hidles, ?_⟩
        rw [namesOf_name hidle, List.cons_append, afterNames?, if_neg hidle, if_pos rfl, hafter]

theorem ofSegments_idles (hidles : ∀ s ∈ idles, isIdle s) (hnames : ∀ n ∈ names, IsName n) :
    ofSegments (idles ++ names) = Text.join ['/'] names := by
  have hkept : ∀ steps : List Text, (∀ n ∈ steps, IsName n) → steps.dropWhile isIdle = steps := by
    intro steps hsteps
    cases steps with
    | nil => rfl
    | cons step steps => exact List.dropWhile_cons_of_neg (by simp [(hsteps step (List.mem_cons_self ..)).idle])
  rw [ofSegments, List.dropWhile_append_of_pos hidles, hkept names hnames,
    hkept names.reverse fun n hn => hnames n (List.mem_reverse.1 hn), List.reverse_reverse]

/-- What goes on below a folder by names is these names there. -/
theorem below?_under (hbase : base ≠ []) (hne : names ≠ []) (hnames : ∀ n ∈ names, IsPlain n) :
    below? base (under base names) = some (Text.join ['/'] names) := by
  have hlead : namesOf (segments base) = namesOf (lead base) := by
    have hempty : namesOf [[]] = [] := rfl
    rcases (segments_eq_lead hbase).2 with h | h
    · rw [h]
    · rw [h, namesOf_append, hempty, List.append_nil]
  have hstart : isAbsolute (under base names) = isAbsolute base :=
    isAbsolute_join_relative hbase (isAbsolute_join hne hnames)
  obtain ⟨idles, hidles, hafter⟩ := afterNames?_append (lead base) names
  rw [below?, if_pos hstart.symm, segments_under hne hnames]
  show (afterNames? (namesOf (segments base)) _).map ofSegments = _
  rw [hlead, hafter, Option.map_some, ofSegments_idles hidles fun n hn => (hnames n hn).toIsName]

/-- The folder itself is nothing there. -/
theorem below?_self (base : Text) : below? base base = some [] := by
  obtain ⟨idles, hidles, hafter⟩ := afterNames?_append (segments base) []
  rw [List.append_nil] at hafter
  rw [below?, if_pos rfl]
  show (afterNames? (namesOf (segments base)) _).map ofSegments = _
  rw [hafter, Option.map_some, ofSegments_idles hidles (by simp)]
  rfl

end SiteScaffold.Path

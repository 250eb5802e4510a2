/-
Paths that go on below a folder by names. However the path of the folder is written, what
is joined to it has the names as its last steps (`segments_under`) and as its last parts
(`parts_under`), and its parent has all but the last of them (`parent?_under`). So the file
name and the kind of a path are those of its last name.
-/
import SiteScaffold.Proofs.Path
import SiteScaffold.Proofs.Text.Lines

namespace SiteScaffold

namespace Text

variable {sep : Char} {name : Text} {names names' : List Text}

theorem join_cons_cons (sep : Char) (a b : Text) (names : List Text) :
    join [sep] (a :: b :: names) = a ++ sep :: join [sep] (b :: names) := by
  simp [join, List.intercalate]

theorem join_append (sep : Char) (hne : names ≠ []) (hne' : names' ≠ []) :
    join [sep] (names ++ names') = join [sep] names ++ sep :: join [sep] names' := by
  induction names with
  | nil => exact absurd rfl hne
  | cons a names ih =>
      cases names with
      | nil =>
          obtain ⟨b, names', rfl⟩ := List.exists_cons_of_ne_nil hne'
          simp [join, List.intercalate]
      | cons b names =>
          have hrest : join [sep] (b :: (names ++ names')) = join [sep] (b :: names) ++ sep :: join [sep] names' :=
            ih (by simp)
          rw [List.cons_append, List.cons_append, join_cons_cons, join_cons_cons, hrest]
          simp

theorem join_concat (sep : Char) (hne : names ≠ []) (name : Text) :
    join [sep] (names ++ [name]) = join [sep] names ++ sep :: name := by
  rw [join_append sep hne (by simp)]
  simp [join, List.intercalate]

/-- Pieces without the separator come apart again. -/
theorem split_join (hne : names ≠ []) (hnames : ∀ name ∈ names, sep ∉ name) :
    split sep (join [sep] names) = names := by
  induction names with
  | nil => exact absurd rfl hne
  | cons a names ih =>
      have ha := split_of_notMem (hnames a (by simp))
      cases names with
      | nil => simpa [join, List.intercalate] using ha
      | cons b names =>
          have hrest := ih (by simp) fun name hname => hnames name (List.mem_cons_of_mem _ hname)
          rw [join_cons_cons, split_append, ha, hrest]
          rfl

theorem notMem_of_mem_split {t : Text} (h : name ∈ split sep t) : sep ∉ name := by
  induction t generalizing name with
  | nil =>
      obtain rfl := List.mem_singleton.1 h
      simp
  | cons c t ih =>
      by_cases hc : c = sep
      · rw [hc, split_sep] at h
        rcases List.mem_cons.1 h with rfl | h
        · simp
        · exact ih h
      · rw [split_cons hc] at h
        obtain ⟨piece, pieces, heq⟩ := List.exists_cons_of_ne_nil (split_ne_nil sep t)
        rw [heq] at h ih
        rcases List.mem_cons.1 h with rfl | h
        · rw [List.mem_cons, not_or]
          exact ⟨Ne.symm hc, ih (List.mem_cons_self ..)⟩
        · exact ih (List.mem_cons_of_mem _ h)

end Text

namespace Path

variable {base name path q relative : Text} {names names' steps : List Text}

-- ====================================================================== its steps

/-- The steps that a path joined to a folder starts with. -/
def lead (base : Text) : List Text := (segments (stem base)).dropLast

theorem segments_stem (base relative : Text) :
    segments (stem base ++ relative) = lead base ++ segments relative := by
  obtain ⟨steps, hsteps⟩ := exists_segments_stem base
  have hempty := hsteps []
  rw [List.append_nil] at hempty
  have hlead : lead base = steps := by
    rw [lead, hempty]
    exact List.dropLast_concat
  rw [hlead, hsteps]

/-- What stands in front of what is joined to a folder ends in a slash, if there is any. -/
theorem stem_eq (base : Text) : stem base = [] ∨ ∃ s, stem base = s ++ ['/'] := by
  by_cases hnil : base = []
  · exact .inl (by rw [hnil]; rfl)
  · by_cases hlast : base.getLast? = some '/'
    · rw [stem, if_pos (by simp [hlast])]
      exact .inr (List.getLast?_eq_some_iff.1 hlast)
    · rw [stem, if_neg (by simp [hnil, hlast])]
      exact .inr ⟨base, rfl⟩

/-- The path that goes on below a folder by names. -/
def under (base : Text) (names : List Text) : Text := join base (Text.join ['/'] names)

/-- Whether a text names an entry of a folder, if it is not too long. -/
structure IsPlain (name : Text) : Prop extends IsName name where
  slash : '/' ∉ name

theorem isPlain_concat (hnames : ∀ n ∈ names, IsPlain n) (hname : IsPlain name) : ∀ n ∈ names ++ [name], IsPlain n :=
  List.forall_mem_append.2 ⟨hnames, List.forall_mem_singleton.2 hname⟩

theorem isAbsolute_join (hne : names ≠ []) (hnames : ∀ name ∈ names, IsPlain name) :
    isAbsolute (Text.join ['/'] names) = false := by
  obtain ⟨a, names, rfl⟩ := List.exists_cons_of_ne_nil hne
  have ha := hnames a (by simp)
  obtain ⟨c, a, rfl⟩ := List.exists_cons_of_ne_nil ha.not_nil
  have hc : c ≠ '/' := fun hc => ha.slash (by simp [hc])
  cases names with
  | nil => simp [isAbsolute, Text.join, List.intercalate, hc]
  | cons b names => simp [isAbsolute, Text.join_cons_cons, hc]

theorem under_eq (hne : names ≠ []) (hnames : ∀ name ∈ names, IsPlain name) :
    under base names = stem base ++ Text.join ['/'] names :=
  join_eq (isAbsolute_join hne hnames)

theorem segments_under (hne : names ≠ []) (hnames : ∀ name ∈ names, IsPlain name) :
    segments (under base names) = lead base ++ names := by
  rw [under_eq hne hnames, segments_stem]
  exact congrArg _ (Text.split_join hne fun name hname => (hnames name hname).slash)

theorem under_ne_nil (hne : names ≠ []) (hnames : ∀ name ∈ names, IsPlain name) : under base names ≠ [] := by
  obtain ⟨front, last, rfl⟩ := List.eq_nil_or_concat' names |>.resolve_left hne
  have hsegments : segments (under base (front ++ [last])) = (lead base ++ front) ++ [last] := by
    rw [segments_under (by simp) hnames, List.append_assoc]
  exact ne_nil_of_segments hsegments (hnames last (by simp)).toIsName

theorem under_inj (hne : names ≠ []) (hnames : ∀ name ∈ names, IsPlain name) (hne' : names' ≠ [])
    (hnames' : ∀ name ∈ names', IsPlain name) (h : under base names = under base names') :
    names = names' := by
  have hsegments := congrArg segments h
  rw [segments_under hne hnames, segments_under hne' hnames'] at hsegments
  exact List.append_cancel_left hsegments

theorem under_concat (hne : names ≠ []) (hnames : ∀ n ∈ names ++ [name], IsPlain n) :
    under base (names ++ [name]) = child (under base names) name := by
  rw [under_eq (by simp) hnames, under_eq hne fun n hn => hnames n (List.mem_append_left _ hn),
    Text.join_concat '/' hne, child, List.append_assoc]

theorem length_under_concat (hne : names ≠ []) (hnames : ∀ n ∈ names ++ [name], IsPlain n) :
    (under base names).length < (under base (names ++ [name])).length := by
  rw [under_concat hne hnames, child, List.length_append, List.length_cons]
  omega

/-- A name joined to such a path goes on below it. -/
theorem join_under (hne : names ≠ []) (hnames : ∀ n ∈ names ++ [name], IsPlain n) :
    join (under base names) name = under base (names ++ [name]) := by
  obtain ⟨names, last, rfl⟩ := List.eq_nil_or_concat' names |>.resolve_left hne
  have hlast : IsPlain last := hnames last (by simp)
  have hname : IsPlain name := hnames name (by simp)
  have hsegments : segments (under base (names ++ [last])) = (lead base ++ names) ++ [last] := by
    rw [segments_under (by simp) fun n hn => hnames n (List.mem_append_left _ hn), List.append_assoc]
  have hrelative : isAbsolute name = false := by
    have hsingle : isAbsolute (Text.join ['/'] [name]) = false := isAbsolute_join (by simp) (by simpa)
    simpa [Text.join, List.intercalate] using hsingle
  rw [under_concat (by simp) hnames, join_child hrelative
    (ne_nil_of_segments hsegments hlast.toIsName) (getLast?_ne_slash hsegments hlast.toIsName)]

/-- Below a path that goes on below a folder one gets to by going on. -/
theorem under_under (hne : names ≠ []) (hne' : names' ≠ []) (hnames : ∀ n ∈ names ++ names', IsPlain n) :
    under (under base names) names' = under base (names ++ names') := by
  obtain ⟨front, last, rfl⟩ := List.eq_nil_or_concat' names |>.resolve_left hne
  have hfront : ∀ n ∈ front ++ [last], IsPlain n := fun n hn => hnames n (List.mem_append_left _ hn)
  have hlast : IsPlain last := hfront last (by simp)
  have hsegments : segments (under base (front ++ [last])) = (lead base ++ front) ++ [last] := by
    rw [segments_under (by simp) hfront, List.append_assoc]
  have hstem : stem (under base (front ++ [last])) = under base (front ++ [last]) ++ ['/'] :=
    if_neg (by simp [ne_nil_of_segments hsegments hlast.toIsName, getLast?_ne_slash hsegments hlast.toIsName])
  rw [under_eq hne' fun n hn => hnames n (List.mem_append_right _ hn), hstem, under_eq (by simp) hfront,
    under_eq (by simp) hnames, Text.join_append '/' (by simp) hne']
  simp

/-- A path is the front of those that go on below it. -/
theorem under_prefix (hne : names ≠ []) (hnames : ∀ n ∈ names ++ names', IsPlain n) :
    under base names <+: under base (names ++ names') := by
  have hfront : ∀ n ∈ names, IsPlain n := fun n hn => hnames n (List.mem_append_left _ hn)
  by_cases hne' : names' = []
  · simp [hne']
  · rw [under_eq hne hfront, under_eq (by simp [hne]) hnames, Text.join_append '/' hne hne']
    exact (List.prefix_append_right_inj _).2 (List.prefix_append _ _)

/-- A path below a folder ends in a name. -/
theorem bare_under (hne : names ≠ []) (hnames : ∀ name ∈ names, IsPlain name) :
    bare (under base names) = under base names ∧ endsInSlash (under base names) = false := by
  obtain ⟨names, last, rfl⟩ := List.eq_nil_or_concat' names |>.resolve_left hne
  have hlast := (hnames last (by simp)).toIsName
  have hsegments : segments (under base (names ++ [last])) = _ := segments_under hne hnames
  rw [← List.append_assoc] at hsegments
  exact ⟨bare_eq hsegments hlast, endsInSlash_eq hsegments hlast⟩

theorem under_singleton (base name : Text) : under base [name] = join base name := by
  simp [under, Text.join, List.intercalate]

theorem under_segments (base path : Text) : under base (segments path) = join base path :=
  congrArg (join base) (Text.join_split '/' path)

theorem segments_inj (h : segments path = segments q) : path = q := by
  have hpath := Text.join_split '/' path
  rw [show Text.split '/' path = Text.split '/' q from h] at hpath
  exact hpath.symm.trans (Text.join_split '/' q)

-- ====================================================================== its parts

theorem getLast?_parts (hsegments : segments path = steps ++ [name]) (hname : IsName name) :
    (parts path).getLast? = some (.name name) := by
  have hnamed : ((segments path).filter (!isIdle ·)).map Part.ofSegment
      = (steps.filter (!isIdle ·)).map Part.ofSegment ++ [.name name] := by
    simp [hsegments, hname.idle, hname.part]
  unfold parts
  simp only [hnamed]
  split
  · rw [← List.cons_append, List.getLast?_concat]
  · split
    · rw [← List.cons_append, List.getLast?_concat]
    · rw [List.getLast?_concat]

/-- The last step of a path is the name of what it leads to. -/
theorem fileName?_eq (hsegments : segments path = steps ++ [name]) (hname : IsName name) :
    fileName? path = some name := by
  rw [fileName?, getLast?_parts hsegments hname]

theorem fileName?_name (h : IsPlain name) : fileName? name = some name :=
  have hsegments : segments name = [] ++ [name] := Text.split_of_notMem h.slash
  fileName?_eq hsegments h.toIsName

theorem fileName?_under (hnames : ∀ n ∈ names ++ [name], IsPlain n) :
    fileName? (under base (names ++ [name])) = some name := by
  have hsegments : segments (under base (names ++ [name])) = (lead base ++ names) ++ [name] := by
    rw [segments_under (by simp) hnames, List.append_assoc]
  exact fileName?_eq hsegments (hnames name (by simp)).toIsName

/-- The steps of a folder, but for a slash at its end, are those in front of what is
joined to it. -/
theorem segments_eq_lead (hne : base ≠ []) :
    lead base ≠ [] ∧ (segments base = lead base ∨ segments base = lead base ++ [[]]) := by
  have hlead : ∀ s : Text, stem base = s ++ ['/'] → lead base = segments s := by
    intro s hs
    rw [lead, hs, segments, Text.split_append '/' s []]
    exact List.dropLast_concat
  by_cases hlast : base.getLast? = some '/'
  · obtain ⟨s, rfl⟩ := List.getLast?_eq_some_iff.1 hlast
    have hstem : stem (s ++ ['/']) = s ++ ['/'] := if_pos (by simp)
    rw [hlead s hstem]
    exact ⟨Text.split_ne_nil '/' s, .inr (Text.split_append '/' s [])⟩
  · have hstem : stem base = base ++ ['/'] := if_neg (by simp [hne, hlast])
    rw [hlead base hstem]
    exact ⟨Text.split_ne_nil '/' base, .inl rfl⟩

/-- A path joined to one below a folder starts with its steps. -/
theorem lead_under (hne : names ≠ []) (hnames : ∀ name ∈ names, IsPlain name) :
    lead (under base names) = lead base ++ names := by
  obtain ⟨names, last, rfl⟩ := List.eq_nil_or_concat' names |>.resolve_left hne
  have hlast : IsPlain last := hnames last (by simp)
  have hsegments : segments (under base (names ++ [last])) = _ := segments_under hne hnames
  rw [← List.append_assoc] at hsegments ⊢
  rcases (segments_eq_lead (ne_nil_of_segments hsegments hlast.toIsName)).2 with h | h
  · rw [← h, hsegments]
  · rw [hsegments] at h
    obtain ⟨-, heq⟩ := List.append_inj' h rfl
    cases heq
    exact absurd rfl hlast.not_nil

/-- The names among the steps of a path. -/
def namesOf (steps : List Text) : List Text := steps.filter (!isIdle ·)

theorem namesOf_append (steps steps' : List Text) :
    namesOf (steps ++ steps') = namesOf steps ++ namesOf steps' := List.filter_append ..

theorem namesOf_idle {step : Text} (h : isIdle step) : namesOf (step :: steps) = namesOf steps :=
  List.filter_cons_of_neg (by simp [h])

theorem namesOf_name {step : Text} (h : ¬ isIdle step) :
    namesOf (step :: steps) = step :: namesOf steps :=
  List.filter_cons_of_pos (by simpa using h)

theorem namesOf_names (hnames : ∀ name ∈ names, IsPlain name) : namesOf names = names :=
  List.filter_eq_self.2 fun name hname => by simp [(hnames name hname).idle]

theorem parts_def (path : Text) : parts path
    = if isAbsolute path then .root :: (namesOf (segments path)).map Part.ofSegment
      else if (segments path).head? = some ['.'] then .here :: (namesOf (segments path)).map Part.ofSegment
      else (namesOf (segments path)).map Part.ofSegment := rfl

/-- A path joined to a folder starts where that of the folder does. -/
theorem isAbsolute_join_relative (hne : base ≠ []) (habsolute : isAbsolute relative = false) :
    isAbsolute (join base relative) = isAbsolute base := by
  obtain ⟨c, rest, rfl⟩ := List.exists_cons_of_ne_nil hne
  rw [join_eq habsolute]
  unfold stem
  split
  · rfl
  · rfl

/-- Joined to a folder, a path has its parts behind those of the folder. -/
theorem parts_join (habsolute : isAbsolute relative = false)
    (hhere : (segments relative).head? ≠ some ['.']) :
    parts (join base relative) = parts base ++ parts relative := by
  have hrelative : parts relative = (namesOf (segments relative)).map Part.ofSegment := by
    rw [parts_def, habsolute, if_neg Bool.false_ne_true, if_neg hhere]
  have hsegments : segments (join base relative) = lead base ++ segments relative := by
    rw [join_eq habsolute, segments_stem]
  by_cases hbase : base = []
  · have hjoin : join base relative = relative := by
      rw [hbase, join_eq habsolute]
      rfl
    have hempty : parts base = [] := by
      rw [hbase]
      rfl
    rw [hjoin, hempty, List.nil_append]
  · obtain ⟨hlead, hsteps⟩ := segments_eq_lead hbase
    obtain ⟨step, more, hmore⟩ := List.exists_cons_of_ne_nil hlead
    have hstart := isAbsolute_join_relative hbase habsolute
    have hhead : (segments (join base relative)).head? = (segments base).head? := by
      rw [hsegments, hmore]
      rcases hsteps with h | h
      · rw [h, hmore]
        rfl
      · rw [h, hmore]
        rfl
    have hnames : namesOf (segments (join base relative))
        = namesOf (segments base) ++ namesOf (segments relative) := by
      have hempty : namesOf [[]] = [] := rfl
      rw [hsegments, namesOf_append]
      rcases hsteps with h | h
      · rw [h]
      · rw [h, namesOf_append, hempty, List.append_nil]
    rw [hrelative, parts_def base, parts_def (join base relative), hstart, hhead, hnames, List.map_append]
    split
    · rfl
    · split
      · rfl
      · rfl

/-- The parts of a path below a folder are those of the folder and the names. -/
theorem parts_under (hne : names ≠ []) (hnames : ∀ name ∈ names, IsPlain name) :
    parts (under base names) = parts base ++ names.map .name := by
  have habsolute := isAbsolute_join hne hnames
  have hsegments : segments (Text.join ['/'] names) = names :=
    Text.split_join hne fun name hname => (hnames name hname).slash
  have hhere : (segments (Text.join ['/'] names)).head? ≠ some ['.'] := by
    rw [hsegments]
    intro hhead
    cases (hnames _ (List.mem_of_head? hhead)).idle
  rw [under, parts_join habsolute hhere, parts_def (Text.join _ _), habsolute, if_neg Bool.false_ne_true, if_neg hhere,
    hsegments, namesOf_names hnames]
  congr 1
  exact List.map_congr_left fun name hname => (hnames name hname).part

/-- Only the name of what a path leads to decides its extension. -/
theorem extension?_congr (h : fileName? path = fileName? q) : extension? path = extension? q := by
  unfold extension?
  rw [h]

theorem extension?_under (hnames : ∀ n ∈ names ++ [name], IsPlain n) :
    extension? (under base (names ++ [name])) = extension? name := by
  refine extension?_congr ?_
  rw [fileName?_under hnames, fileName?_name (hnames name (by simp))]

/-- The extension of a name is what stands behind its last dot. -/
theorem extension?_stem {stem x : Text} (hname : IsPlain (stem ++ '.' :: x)) (hx : '.' ∉ x) :
    extension? (stem ++ '.' :: x) = if stem.isEmpty then none else some x := by
  have hback : (stem ++ '.' :: x).reverse = x.reverse ++ '.' :: stem.reverse := by simp
  have hpos : ∀ c ∈ x.reverse, (decide (c ≠ '.')) = true := by
    intro c hc
    exact decide_eq_true fun heq => hx (heq ▸ List.mem_reverse.1 hc)
  have hdot : (x.reverse ++ '.' :: stem.reverse).contains '.' = true := by simp
  unfold extension?
  rw [fileName?_name hname]
  show (if !(stem ++ '.' :: x).reverse.contains '.' then none else _) = _
  rw [hback, hdot, if_neg (by simp), List.dropWhile_append_of_pos hpos, List.takeWhile_append_of_pos hpos,
    List.dropWhile_cons_of_neg (by simp), List.takeWhile_cons_of_neg (by simp)]
  simp

/-- What a path ends in, up to a slash, its last name ends in. -/
theorem endsWith_under {suffix : Text} (hnames : ∀ n ∈ names ++ [name], IsPlain n)
    (hsuffix : '/' ∉ suffix) :
    Text.endsWith (under base (names ++ [name])) suffix = Text.endsWith name suffix := by
  obtain ⟨front, hfront⟩ : ∃ front, under base (names ++ [name]) = front ++ name
      ∧ (front = [] ∨ ∃ s, front = s ++ ['/']) := by
    rw [under_eq (by simp) hnames]
    by_cases hnil : names = []
    · subst hnil
      exact ⟨stem base, by simp [Text.join, List.intercalate], stem_eq base⟩
    · refine ⟨stem base ++ (Text.join ['/'] names ++ ['/']), ?_, .inr ⟨_, (List.append_assoc ..).symm⟩⟩
      rw [Text.join_concat '/' hnil]
      simp
  rw [hfront.1, Bool.eq_iff_iff, Text.endsWith_iff, Text.endsWith_iff]
  constructor
  · intro h
    rcases List.suffix_or_suffix_of_suffix h (List.suffix_append front name) with h | h
    · exact h
    · -- the slash in front of the name would be in the suffix
      obtain ⟨t, rfl⟩ := h
      rcases hfront.2 with rfl | ⟨s, rfl⟩
      · exact h
      · rcases List.eq_nil_or_concat' t with rfl | ⟨t, c, rfl⟩
        · exact List.suffix_refl _
        · obtain ⟨u, hu⟩ := h
          rw [← List.append_assoc, ← List.append_assoc] at hu
          obtain ⟨hu, -⟩ := List.append_inj' hu rfl
          obtain ⟨-, hc⟩ := List.append_inj' hu rfl
          cases hc
          simp at hsuffix
  · exact fun h => h.trans (List.suffix_append front name)

-- ===================================================================== its parent

/-- How many parts of a path are names or lead up. -/
def depth (path : Text) : Nat := ((segments path).filter (!isIdle ·)).length

theorem depth_eq (path : Text) :
    depth path = (parts path).countP fun part => part ≠ .root ∧ part ≠ .here := by
  have hnamed : ∀ steps : List Text,
      (steps.map Part.ofSegment).countP (fun part => part ≠ .root ∧ part ≠ .here) = steps.length := by
    intro steps
    rw [List.countP_eq_length.2, List.length_map]
    intro part hpart
    obtain ⟨step, -, rfl⟩ := List.mem_map.1 hpart
    unfold Part.ofSegment
    split
    · rfl
    · rfl
  unfold depth parts
  dsimp only
  split
  · rw [List.countP_cons_of_neg (by simp), hnamed]
  · split
    · rw [List.countP_cons_of_neg (by simp), hnamed]
    · rw [hnamed]

theorem depth_of_parts_eq {path' : Text} (h : parts path' = parts path) : depth path' = depth path := by
  rw [depth_eq, depth_eq, h]

theorem depth_under (hne : names ≠ []) (hnames : ∀ name ∈ names, IsPlain name) :
    depth (under base names) = depth base + names.length := by
  rw [depth_eq, depth_eq, parts_under hne hnames, List.countP_append]
  congr 1
  rw [List.countP_eq_length.2, List.length_map]
  intro part hpart
  obtain ⟨name, -, rfl⟩ := List.mem_map.1 hpart
  rfl

/-- A path of one name in the folder that it starts in begins with a dot, and only idle steps come
before the name. -/
theorem steps_of_here {last : Part} (hsegments : segments path = steps ++ [name]) (hname : IsName name)
    (hparts : parts path = [.here, last]) : ∃ rest, steps = ['.'] :: rest ∧ ∀ step ∈ rest, isIdle step := by
  have hnames : namesOf (segments path) = namesOf steps ++ [name] := by
    rw [hsegments, namesOf_append, namesOf_name (by simp [hname.idle])]
    rfl
  rw [parts_def] at hparts
  split at hparts
  · cases hparts
  · split at hparts
    next hhere =>
      have hnone : namesOf steps = [] := by
        have hlength := congrArg List.length hparts
        rw [hnames] at hlength
        simpa using hlength
      rw [hsegments] at hhere
      cases steps with
      | nil =>
          cases hhere
          cases hname.idle
      | cons step rest =>
          cases hhere
          refine ⟨rest, rfl, fun step hstep => ?_⟩
          simpa using List.filter_eq_nil_iff.1 hnone step (List.mem_cons_of_mem _ hstep)
    next =>
      obtain ⟨step, -, hstep⟩ := List.mem_map.1 (hparts ▸ List.mem_cons_self)
      unfold Part.ofSegment at hstep
      split at hstep
      · cases hstep
      · cases hstep

/-- The path above a name goes by the steps before it, but for idle ones at their end. -/
theorem parent?_cases (hsegments : segments path = steps ++ [name]) (hname : IsName name) (h : parent? path = some q) :
    ∃ front idle, steps = front ++ idle ∧ (∀ step ∈ idle, isIdle step)
      ∧ ((q = [] ∨ q = ['/']) ∧ front = []
        ∨ segments q = front ∧ ∃ more last, front = more ++ [last] ∧ last ≠ []) := by
  have hslash : ∀ step ∈ steps, '/' ∉ step := by
    intro step hstep
    refine Text.notMem_of_mem_split (t := path) ?_
    show step ∈ segments path
    rw [hsegments]
    exact List.mem_append_left _ hstep
  have hback : ((segments path).reverse.dropWhile isIdle).drop 1 = steps.reverse := by
    rw [hsegments]
    simp [hname.idle]
  have hsplit : steps = (steps.reverse.dropWhile isIdle).reverse ++ (steps.reverse.takeWhile isIdle).reverse := by
    rw [← List.reverse_append, List.takeWhile_append_dropWhile, List.reverse_reverse]
  have hidle : ∀ step ∈ (steps.reverse.takeWhile isIdle).reverse, isIdle step := fun step hstep =>
    List.all_eq_true.1 List.all_takeWhile step (List.mem_reverse.1 hstep)
  have hlast : (parts path).reverse.head? = some (.name name) := by
    rw [List.head?_reverse]
    exact getLast?_parts hsegments hname
  unfold parent? at h
  simp only [hback] at h
  split at h
  · cases h
  · cases h
  next hparts =>
    rw [hparts] at hlast
    cases hlast
  next last _ hparts =>
    -- the path is a name in the folder that it starts in
    cases h
    have hparts : parts path = [.here, last] := by simpa using congrArg List.reverse hparts
    obtain ⟨rest, rfl, hidles⟩ := steps_of_here hsegments hname hparts
    exact ⟨[['.']], rest, rfl, hidles, .inr ⟨rfl, [], ['.'], rfl, by simp⟩⟩
  next head rest _ _ _ =>
    have hfront : ∀ last more, steps.reverse.dropWhile isIdle = last :: more → isIdle last = false := by
      intro last more hdrop
      have hhead := List.head?_dropWhile_not isIdle steps.reverse
      rw [hdrop] at hhead
      simpa using hhead
    refine ⟨_, _, hsplit, hidle, ?_⟩
    cases hdrop : steps.reverse.dropWhile isIdle with
    | nil =>
        rw [hdrop] at h
        refine .inl ⟨?_, rfl⟩
        split at h
        · exact .inr (Option.some.inj h).symm
        · exact .inl (Option.some.inj h).symm
    | cons last more =>
        have hstep := hfront last more hdrop
        have hany : ((more.reverse ++ [last]).dropWhile isIdle).isEmpty = false :=
          isEmpty_dropWhile_isIdle (List.mem_append_right _ (List.mem_singleton_self last)) hstep
        rw [hdrop, List.reverse_cons, hany, Bool.and_false, if_neg Bool.false_ne_true] at h
        refine .inr ⟨?_, more.reverse, last, List.reverse_cons, ?_⟩
        · rw [← Option.some.inj h, segments, List.reverse_cons]
          refine Text.split_join (by simp) fun step hmem => hslash step ?_
          rw [hsplit, hdrop, List.reverse_cons]
          exact List.mem_append_left _ hmem
        · rintro rfl
          cases hstep

/-- The parent of a path with a name at its end is less deep. -/
theorem depth_parent?_lt (hsegments : segments path = steps ++ [name]) (hname : IsName name)
    (h : parent? path = some q) : depth q < depth path := by
  obtain ⟨front, idle, rfl, -, hfront⟩ := parent?_cases hsegments hname h
  have hdepth : depth path = (front.filter (!isIdle ·)).length + (idle.filter (!isIdle ·)).length + 1 := by
    simp [depth, hsegments, hname.idle, Nat.add_assoc]
  rcases hfront with ⟨hq, -⟩ | ⟨hq, -⟩
  · rcases hq with rfl | rfl
    · exact hdepth ▸ Nat.succ_pos _
    · exact hdepth ▸ Nat.succ_pos _
  · rw [hdepth, depth, hq]
    omega

/-- The path above one below a folder goes on by the names but for the last one. -/
theorem parent?_under_concat (hne : names ≠ []) (hnames : ∀ n ∈ names ++ [name], IsPlain n) :
    parent? (under base (names ++ [name])) = some (under base names) := by
  have hname : IsPlain name := hnames name (by simp)
  obtain ⟨front, last, rfl⟩ := List.eq_nil_or_concat' names |>.resolve_left hne
  have hfront : ∀ n ∈ front ++ [last], IsPlain n := fun n hn => hnames n (List.mem_append_left _ hn)
  have hsegments : segments (under base (front ++ [last])) = (lead base ++ front) ++ [last] := by
    rw [segments_under (by simp) hfront, List.append_assoc]
  rw [under_concat (by simp) hnames]
  exact parent?_child hsegments (hfront last (by simp)).toIsName hname.toIsName hname.slash

/-- The parent of a path below a folder lies at the names but for the last one. -/
theorem parent?_under (hnames : ∀ n ∈ names ++ [name], IsPlain n) (hne : names' ≠ [])
    (hnames' : ∀ n ∈ names', IsPlain n) :
    (parent? (under base (names ++ [name]))).map parts = some (parts (under base names'))
      ↔ names = names' := by
  have hname : IsPlain name := hnames name (by simp)
  have hfront : ∀ n ∈ names, IsPlain n := fun n hn => hnames n (List.mem_append_left _ hn)
  by_cases hnil : names = []
  · subst hnil
    refine iff_of_false (fun h => ?_) (Ne.symm hne)
    obtain ⟨q, hparent, hq⟩ := Option.map_eq_some_iff.1 h
    have hlt := depth_parent?_lt (segments_under (by simp) hnames) hname.toIsName hparent
    have hpath : depth (under base [name]) = depth base + 1 := depth_under (by simp) hnames
    rw [depth_of_parts_eq hq, depth_under hne hnames', hpath] at hlt
    have hlength := List.length_pos_iff.2 hne
    omega
  · rw [parent?_under_concat hnil hnames, Option.map_some, Option.some.injEq, parts_under hnil hfront,
      parts_under hne hnames', List.append_cancel_left_eq]
    exact List.map_inj_right fun _ _ => Part.name.inj

end Path

end SiteScaffold

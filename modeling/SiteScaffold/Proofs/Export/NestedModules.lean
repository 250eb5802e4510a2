/-
References to script modules in nested folders. The group of folders in the pattern is greedy,
so it takes all folders of the path and leaves the name of the file to the capture, whatever
dots either of them has (`prefers_moduleReference`). The reference is so led by its name alone,
to where no rule finds anything to lead, and the rules that come later leave it as it is
(`rewrite_module`). It may climb to the assets by any number of steps.
-/
import SiteScaffold.Proofs.Export.Values

namespace SiteScaffold.Export.Html

open Pattern

variable {before : Option Char} {name page u : Text} {dirs : List Text} {port steps : Nat}

-- ========================================================================= paths

/-- Some steps up. -/
def climb (steps : Nat) : Text := (List.replicate steps "../".toList).flatten

/-- The way down through some folders. -/
def descend (dirs : List Text) : Text := dirs.flatMap (· ++ ['/'])

/-- What folders and files in a reference may be called. -/
def IsSegment (d : Text) : Prop := d ≠ [] ∧ ∀ c ∈ d, inName c

theorem inPath_descend (h : ∀ d ∈ dirs, IsSegment d) : ∀ c ∈ descend dirs, inPath c := by
  intro c hc
  obtain ⟨d, hd, hc⟩ := List.mem_flatMap.1 hc
  rcases List.mem_append.1 hc with hc | hc
  · exact inPath_of_inName ((h d hd).2 c hc)
  · obtain rfl := List.mem_singleton.1 hc
    decide

/-- A way through folders starts with the name of one and ends with a slash. -/
theorem exists_descend (h : ∀ d ∈ dirs, IsSegment d) (hne : dirs ≠ []) :
    ∃ c way, descend dirs = c :: (way ++ ['/']) := by
  obtain ⟨d, dirs, rfl⟩ := List.exists_cons_of_ne_nil hne
  obtain ⟨c, d, rfl⟩ := List.exists_cons_of_ne_nil (h d (List.mem_cons_self ..)).1
  obtain ⟨front, last, hlast⟩ : ∃ front last, (c :: d) :: dirs = front ++ [last] :=
    ⟨_, _, (List.dropLast_concat_getLast (by simp)).symm⟩
  have hends : descend ((c :: d) :: dirs) = descend front ++ last ++ ['/'] := by
    rw [hlast]
    simp [descend]
  have hstarts : descend ((c :: d) :: dirs) = c :: (d ++ '/' :: descend dirs) := by
    simp [descend]
  cases hway : descend front ++ last with
  | nil =>
      rw [hends, hway] at hstarts
      simp at hstarts
  | cons c' way => exact ⟨c', way, by rw [hends, hway]; rfl⟩

theorem notMem_climb {c : Char} (hc : c ≠ '.' ∧ c ≠ '/') : c ∉ climb steps := by
  intro hmem
  obtain ⟨step, hstep, hmem⟩ := List.mem_flatten.1 hmem
  obtain rfl := List.eq_of_mem_replicate hstep
  simp [hc] at hmem

-- ======================================================================= matches

/-- The name of a script is captured as a whole. -/
theorem prefers_fileWith_js (hname : IsFileName ["js".toList] name) :
    (fileWith (literal "js".toList)).Prefers before name [] := by
  have hword : (lastAfter before name).any Text.isWord = true := by
    obtain ⟨stem, x, rfl, -, -, hx⟩ := hname
    rw [lastAfter_append, lastAfter_cons]
    exact lastAfter_any_isWord (lists_js.ne_nil x hx) fun c hc => (lists_js.inside x hx c hc).1
  have hedge : boundary.Prefers (lastAfter before name) [] [] := prefers_boundary (by rw [hword]; rfl)
  obtain ⟨stem, x, rfl, hne, hstem, hx⟩ := hname
  obtain rfl := List.mem_singleton.1 hx
  obtain ⟨c, stem, rfl⟩ := List.exists_cons_of_ne_nil hne
  -- behind the last dot there is no other one
  have hlater : ∀ s w, '.' :: "js".toList ++ [] = s ++ w → s ≠ [] → (∀ d ∈ s, inName d) →
      ¬ (literal ".".toList ++ literal "js".toList).StartsAt (lastAfter (some c) (stem ++ s)) w := by
    intro s w htext hs _ hstarts
    obtain ⟨v, rfl, -⟩ := startsAt_literal_append.1 hstarts
    obtain ⟨d, s, rfl⟩ := List.exists_cons_of_ne_nil hs
    have htail : "js".toList = s ++ (".".toList ++ v) := (List.cons_eq_cons.1 htext).2
    have hdot : '.' ∈ "js".toList := by
      rw [htail]
      simp
    exact absurd hdot (by decide)
  have hrun : (many inName ++ (literal ".".toList ++ literal "js".toList)).Prefers (some c)
      (stem ++ '.' :: "js".toList) [] := by
    refine prefers_many_append (fun d hd => hstem d (List.mem_cons_of_mem _ hd)) hlater ?_
    exact prefers_append (t := ['.']) (prefers_literal _) (prefers_literal _)
  have hwhole : (one inName ++ (many inName ++ (literal ".".toList ++ literal "js".toList))).Prefers before
      ([c] ++ (stem ++ '.' :: "js".toList)) [] :=
    prefers_append (prefers_one (hstem c (List.mem_cons_self ..))) hrun
  have hbody : (capture 1 (oneOrMore inName ++ "." ++ literal "js".toList)).Prefers before
      ((c :: stem) ++ '.' :: "js".toList) [] :=
    prefers_capture (prefers_assoc.2 (prefers_assoc.2 hwhole))
  have hfile := prefers_append (u := []) hbody hedge
  rwa [List.append_nil] at hfile

/-- The group of folders goes up to the last slash. -/
theorem prefers_folders (h : ∀ d ∈ dirs, IsSegment d) (hname : '/' ∉ name) :
    (optional (oneOrMore inPath ++ "/")).Prefers before (descend dirs) name := by
  by_cases hne : dirs = []
  · subst hne
    refine prefers_optional_nil fun v w htext hmatches => hname ?_
    obtain ⟨a, b, rfl, -, hslash⟩ := matches_append.1 hmatches
    obtain rfl := matches_literal.1 hslash
    rw [htext]
    simp
  · obtain ⟨c, way, hway⟩ := exists_descend h hne
    have hin := inPath_descend h
    rw [hway] at hin ⊢
    have hrun : (many inPath ++ literal "/".toList).Prefers (some c) (way ++ ['/']) name := by
      refine prefers_many_append (fun d hd => hin d (by simp [hd])) (fun s w htext hs _ hstarts => hname ?_)
        (prefers_literal _)
      obtain ⟨v, rest, rfl, hmatches⟩ := hstarts
      obtain rfl := matches_literal.1 hmatches
      obtain ⟨d, s, rfl⟩ := List.exists_cons_of_ne_nil hs
      have hrest : name = s ++ ("/".toList ++ rest) := (List.cons_eq_cons.1 htext).2
      rw [hrest]
      simp
    exact prefers_optional (prefers_assoc.2
      (prefers_append (t := [c]) (prefers_one (hin c (List.mem_cons_self ..))) hrun))

theorem prefers_moduleReference (h : ∀ d ∈ dirs, IsSegment d) (hname : IsFileName ["js".toList] name) :
    moduleReference.Prefers before ("assets/controllers/".toList ++ descend dirs ++ name) [] := by
  have hslash := slash_notMem_of_inName (hname.inName lists_js)
  refine prefers_append (prefers_append (prefers_literal _) ?_) (prefers_fileWith_js hname)
  rw [List.append_nil]
  exact prefers_folders h hslash

-- ========================================================================= values

/-- The rule for modules leads the reference by the name of the file. -/
theorem relocate_module (h : ∀ d ∈ dirs, IsSegment d) (hname : IsFileName ["js".toList] name) (folder : Text) :
    relocate moduleReference folder (climb steps ++ ("assets/controllers/".toList ++ descend dirs ++ name))
      = climb steps ++ (folder ++ name) := by
  have hprefers : moduleReference.Prefers (lastAfter none (climb steps))
      ("assets/controllers/".toList ++ descend dirs ++ name) [] := prefers_moduleReference h hname
  obtain ⟨hit, hmatch, htext⟩ := matchAt_of_prefers hprefers
  have hgroup : hit.group 1 = name := by
    obtain ⟨l, name', rest, -, hhit, hgroup, hlead, hname'⟩ := hit_fileWith lists_js rfl hmatch
    obtain ⟨c, k, rfl, -⟩ := (isLead_controllers hlead).ends
    rw [hhit] at htext
    have hslash : ∀ d ∈ ("assets/controllers/".toList ++ descend dirs).getLast?, inName d = false := by
      intro d hd
      by_cases hne : dirs = []
      · subst hne
        obtain rfl : '/' = d := Option.some.inj hd
        decide
      · obtain ⟨e, way, hway⟩ := exists_descend h hne
        rw [hway, ← List.cons_append, ← List.append_assoc, List.getLast?_concat] at hd
        obtain rfl := Option.some.inj hd
        decide
    have hslash' : ∀ d ∈ (c :: (k ++ ['/'])).getLast?, inName d = false := by
      intro d hd
      rw [← List.cons_append, List.getLast?_concat] at hd
      obtain rfl := Option.some.inj hd
      decide
    obtain ⟨-, hsame⟩ := Text.append_inj_of_span_right htext (hname'.inName lists_js)
      (hname.inName lists_js) hslash' hslash
    rw [hgroup, hsame]
  have hclear : moduleReference.Clear none (climb steps) (hit.text ++ []) := by
    intro u v hsplit hne
    obtain ⟨c, v, rfl⟩ := List.exists_cons_of_ne_nil hne
    rw [matchAt_eq_none_iff_not_startsAt, startsAt_moduleReference]
    have hletter : c ≠ 'a' := by
      rintro rfl
      have hclimb : 'a' ∉ climb steps := notMem_climb (by decide)
      exact hclimb (by rw [hsplit]; simp)
    exact not_leads_cons (a := 'a') hletter
  rw [← htext] at hmatch ⊢
  have hrewrite : relocate moduleReference folder (climb steps ++ (hit.text ++ []))
      = climb steps ++ ((folder ++ hit.group 1) ++ []) :=
    rewrite_of_hit hclear hmatch (by rw [htext]; simp) clear_nil
  rwa [List.append_nil, List.append_nil, hgroup] at hrewrite

/-- Steps in front of a settled text leave it settled. -/
theorem Settled.append (hu : 'a' ∉ u ∧ 'h' ∉ u) (h : Settled port page) : Settled port (u ++ page) where
  modules := h.modules.append (a := 'a') hu.1
  scripts := h.scripts.append (a := 'a') hu.1
  stylesheets := h.stylesheets.append (a := 'a') hu.1
  images := h.images.append (a := 'a') hu.1
  fonts := h.fonts.append (a := 'a') hu.1
  onServer := h.onServer.append (a := 'h') hu.2

theorem marked?_script (hname : IsFileName ["js".toList] name) : AssetKind.marked? name = some .script := by
  have hmarks : AssetKind.script.marks name = true := by
    obtain ⟨stem, x, rfl, hne, -, hx⟩ := hname
    exact AssetKind.marks_iff.2 ⟨stem, x, [], by rw [List.append_nil], hne, hx, rfl⟩
  exact List.find?_cons_of_pos hmarks

/-- A value that refers to a module is led to the folder of scripts. -/
theorem rewrite_module (port : Nat) (h : ∀ d ∈ dirs, IsSegment d) (hname : IsFileName ["js".toList] name) :
    rewrite port (climb steps ++ ("assets/controllers/".toList ++ descend dirs ++ name))
      = climb steps ++ ("assets/js/".toList ++ name) := by
  have hsettled : Settled port (climb steps ++ ("assets/js/".toList ++ name)) := by
    have hled := settled_rewrite port (reference none name)
    rw [rewrite_reference port (hname.inName lists_js), marked?_script hname] at hled
    exact hled.append ⟨notMem_climb (by decide), notMem_climb (by decide)⟩
  have hstage : relocate moduleReference "assets/js/"
        (climb steps ++ ("assets/controllers/".toList ++ descend dirs ++ name))
      = relocate moduleReference "assets/js/" (climb steps ++ ("assets/js/".toList ++ name)) := by
    rw [relocate_module h hname,
      relocate_of_quiet (fun _ _ => startsAt_moduleReference) hsettled.modules]
  calc rewrite port (climb steps ++ ("assets/controllers/".toList ++ descend dirs ++ name))
      = rewrite port (climb steps ++ ("assets/js/".toList ++ name)) := by
        rw [rewrite_eq_leads, hstage, ← rewrite_eq_leads]
    _ = _ := rewrite_of_settled hsettled

/-- In a page, the value is led whatever stands around its quotation marks. -/
theorem rewrite_quoted_module (port : Nat) (h : ∀ d ∈ dirs, IsSegment d) (hname : IsFileName ["js".toList] name)
    {q q' : Char} (hq : isQuote q) (hq' : isQuote q') (front back : Text) :
    rewrite port (front ++ q :: (climb steps ++ ("assets/controllers/".toList ++ descend dirs ++ name) ++ q' :: back))
      = rewrite port front ++ q :: (climb steps ++ ("assets/js/".toList ++ name) ++ q' :: rewrite port back) := by
  rw [rewrite_append hq, rewrite_append hq', rewrite_module port h hname]

end SiteScaffold.Export.Html

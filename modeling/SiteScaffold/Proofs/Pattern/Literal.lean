/-
Patterns that are built around a name. Such a pattern takes the name literally if what it
matches is a spelling of the name between surroundings in which the name does not show
(`TakesLiterally`). A pattern that matches one text only does (`takesLiterally_literal`), and
what is put in front of a pattern or after it, or offered besides, leaves that as it is
(`after`, `before`, `or`). So it is read off how a pattern is put together.
-/
import SiteScaffold.Proofs.Pattern.Matches

namespace SiteScaffold.Pattern

/-- Whether what patterns match is a spelling of the name that they are built around, between
one of some surroundings that are the same for all names. -/
def TakesLiterally (spellings : Text → List Text) (build : Text → Pattern) : Prop :=
  ∃ surroundings : List (Pattern × Pattern), ∀ name before t rest, (build name).Matches before t rest ↔
    ∃ sides ∈ surroundings, ∃ spelling ∈ spellings name, ∃ left right, t = left ++ (spelling ++ right)
      ∧ sides.1.Matches before left (spelling ++ (right ++ rest))
      ∧ sides.2.Matches (lastAfter before (left ++ spelling)) right rest

theorem takesLiterally_literal : TakesLiterally (fun name => [name]) literal := by
  refine ⟨[(empty, empty)], fun name before t rest => ?_⟩
  simp

/-- A name that may be spelled in one of two ways. -/
theorem takesLiterally_either (spelled spelled' : Text → Text) :
    TakesLiterally (fun name => [spelled name, spelled' name])
      fun name => literal (spelled name) ||| literal (spelled' name) := by
  refine ⟨[(empty, empty)], fun name before t rest => ?_⟩
  simp

namespace TakesLiterally

variable {spellings : Text → List Text} {build build' : Text → Pattern}

/-- Something comes first. -/
theorem after (h : TakesLiterally spellings build) (first : Pattern) :
    TakesLiterally spellings fun name => first ++ build name := by
  obtain ⟨surroundings, hmatches⟩ := h
  refine ⟨surroundings.map fun sides => (first ++ sides.1, sides.2), fun name before t rest => ?_⟩
  rw [matches_append]
  constructor
  · rintro ⟨u, v, rfl, hfirst, hbuild⟩
    obtain ⟨sides, hsides, spelling, hspelling, left, right, rfl, hleft, hright⟩ := (hmatches ..).1 hbuild
    refine ⟨_, List.mem_map_of_mem hsides, spelling, hspelling, u ++ left, right, by simp, ?_, ?_⟩
    · refine matches_append.2 ⟨u, left, rfl, ?_, hleft⟩
      simpa using hfirst
    · simpa using hright
  · rintro ⟨_, hmem, spelling, hspelling, w, right, rfl, hleft, hright⟩
    obtain ⟨sides, hsides, rfl⟩ := List.mem_map.1 hmem
    obtain ⟨u, left, rfl, hfirst, hleft⟩ := matches_append.1 hleft
    refine ⟨u, left ++ (spelling ++ right), by simp, by simpa using hfirst, ?_⟩
    exact (hmatches ..).2 ⟨sides, hsides, spelling, hspelling, left, right, rfl, hleft, by simpa using hright⟩

/-- Something comes next. -/
theorem before (h : TakesLiterally spellings build) (second : Pattern) :
    TakesLiterally spellings fun name => build name ++ second := by
  obtain ⟨surroundings, hmatches⟩ := h
  refine ⟨surroundings.map fun sides => (sides.1, sides.2 ++ second), fun name before t rest => ?_⟩
  rw [matches_append]
  constructor
  · rintro ⟨u, v, rfl, hbuild, hsecond⟩
    obtain ⟨sides, hsides, spelling, hspelling, left, right, rfl, hleft, hright⟩ := (hmatches ..).1 hbuild
    refine ⟨_, List.mem_map_of_mem hsides, spelling, hspelling, left, right ++ v, by simp, by simpa using hleft, ?_⟩
    exact matches_append.2 ⟨right, v, rfl, hright, by simpa using hsecond⟩
  · rintro ⟨_, hmem, spelling, hspelling, left, w, rfl, hleft, hright⟩
    obtain ⟨sides, hsides, rfl⟩ := List.mem_map.1 hmem
    obtain ⟨right, v, rfl, hright, hsecond⟩ := matches_append.1 hright
    refine ⟨left ++ (spelling ++ right), v, by simp, ?_, by simpa using hsecond⟩
    exact (hmatches ..).2 ⟨sides, hsides, spelling, hspelling, left, right, rfl, by simpa using hleft, hright⟩

/-- One pattern or the other. -/
theorem or (h : TakesLiterally spellings build) (h' : TakesLiterally spellings build') :
    TakesLiterally spellings fun name => build name ||| build' name := by
  obtain ⟨surroundings, hmatches⟩ := h
  obtain ⟨surroundings', hmatches'⟩ := h'
  refine ⟨surroundings ++ surroundings', fun name before t rest => ?_⟩
  rw [matches_or, hmatches, hmatches']
  simp only [List.mem_append, or_and_right, exists_or]

end TakesLiterally

end SiteScaffold.Pattern

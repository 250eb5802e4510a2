/-
Searching a text that is known in parts. A stretch of a text in which no match
starts (`Clear`) goes through a search unchanged, a stretch that is a match is
found as such, and both hold whatever follows; so the pieces of a text are the
pieces of its parts, one after another (`piecesFrom_of_clear`,
`piecesFrom_of_hit`).

For a text of which nothing is known, `Rewritten` relates it to what a
replacement makes of it, character by character and match by match. It is the
induction that statements about every text follow (`rewritten_rewrite`).
-/
import SiteScaffold.Proofs.Pattern.Prefers

namespace SiteScaffold.Pattern

variable {p : Pattern} {before : Option Char} {t u rest : Text}

-- ======================================================= where nothing starts

/-- No match of the pattern starts in the text `t` that stands after `before` and
is followed by `rest`. -/
def Clear (p : Pattern) (before : Option Char) (t rest : Text) : Prop :=
  ∀ u v, t = u ++ v → v ≠ [] → p.matchAt ⟨lastAfter before u, v ++ rest⟩ = none

theorem clear_nil : p.Clear before [] rest := by
  intro u v htext hne
  exact absurd (List.append_eq_nil_iff.1 htext.symm).2 hne

theorem clear_cons {c : Char} :
    p.Clear before (c :: t) rest ↔
      p.matchAt ⟨before, c :: (t ++ rest)⟩ = none ∧ p.Clear (some c) t rest := by
  constructor
  · intro h
    refine ⟨h [] (c :: t) rfl (by simp), fun u v htext hne => ?_⟩
    exact h (c :: u) v (by rw [htext]; rfl) hne
  · rintro ⟨hhere, htail⟩ u v htext hne
    cases u with
    | nil =>
        obtain rfl : c :: t = v := htext
        exact hhere
    | cons d u =>
        obtain ⟨rfl, htail'⟩ : c = d ∧ t = u ++ v := List.cons_eq_cons.1 htext
        exact htail u v htail' hne

theorem clear_append :
    p.Clear before (t ++ u) rest ↔
      p.Clear before t (u ++ rest) ∧ p.Clear (lastAfter before t) u rest := by
  induction t generalizing before with
  | nil => simp [clear_nil]
  | cons c t ih =>
      rw [List.cons_append, clear_cons, clear_cons, ih, List.append_assoc, and_assoc]
      rfl

/-- The pieces of a stretch in which nothing starts are its characters. -/
theorem piecesFrom_of_clear (h : p.Clear before t rest) :
    p.piecesFrom 0 before (t ++ rest)
      = t.map .plain ++ p.piecesFrom 0 (lastAfter before t) rest := by
  induction t generalizing before with
  | nil => rfl
  | cons c t ih =>
      obtain ⟨hhere, htail⟩ := clear_cons.1 h
      rw [List.cons_append, piecesFrom, hhere]
      show Piece.plain c :: p.piecesFrom 0 (some c) (t ++ rest) = _
      rw [ih htail]
      rfl

/-- A search goes over such a stretch. -/
theorem firstFrom_of_clear (h : p.Clear before t rest) : p.firstFrom before (t ++ rest)
    = (p.firstFrom (lastAfter before t) rest).map fun (front, hit, back) => (t ++ front, hit, back) := by
  induction t generalizing before with
  | nil => simp
  | cons c t ih =>
      obtain ⟨hhere, htail⟩ := clear_cons.1 h
      rw [List.cons_append, firstFrom, hhere]
      show Option.map _ (p.firstFrom (some c) (t ++ rest)) = _
      rw [ih htail, Option.map_map]
      rfl

theorem piecesFrom_skip (t rest : Text) :
    p.piecesFrom t.length before (t ++ rest) = p.piecesFrom 0 (lastAfter before t) rest := by
  induction t generalizing before with
  | nil => rfl
  | cons c t ih => exact ih

/-- A stretch that is a match is a piece. -/
theorem piecesFrom_of_hit {hit : Hit} (hmatch : p.matchAt ⟨before, t ++ rest⟩ = some hit)
    (htext : hit.text = t) (hne : t ≠ []) :
    p.piecesFrom 0 before (t ++ rest)
      = .hit hit :: p.piecesFrom 0 (lastAfter before t) rest := by
  obtain ⟨c, u, rfl⟩ := List.exists_cons_of_ne_nil hne
  have hskip : hit.text.length - 1 = u.length := by
    rw [htext]
    rfl
  rw [List.cons_append] at hmatch ⊢
  rw [piecesFrom, hmatch]
  show .hit hit :: p.piecesFrom (hit.text.length - 1) (some c) (u ++ rest) = _
  rw [hskip, piecesFrom_skip]
  rfl

/-- The pieces of a text of which one stretch is a match and nothing else is. -/
theorem pieces_of_hit {a b : Text} (hfront : p.Clear none a (t ++ b))
    (hprefers : p.Prefers (lastAfter none a) t b) (hne : t ≠ [])
    (hback : p.Clear (lastAfter none (a ++ t)) b []) :
    ∃ hit, p.pieces (a ++ (t ++ b)) = a.map .plain ++ .hit hit :: b.map .plain ∧ hit.text = t := by
  obtain ⟨hit, hmatch, htext⟩ := matchAt_of_prefers hprefers
  refine ⟨hit, ?_, htext⟩
  have hpieces := piecesFrom_of_clear hback
  rw [List.append_nil, lastAfter_append] at hpieces
  rw [pieces_eq, piecesFrom_of_clear hfront, piecesFrom_of_hit hmatch htext hne, hpieces, piecesFrom,
    List.append_nil]

/-- A piece that is a match is one at its place. -/
theorem exists_of_mem_piecesFrom {skip : Nat} {hit : Hit} (h : .hit hit ∈ p.piecesFrom skip before t) :
    ∃ u rest, t = u ++ rest ∧ p.matchAt ⟨lastAfter before u, rest⟩ = some hit := by
  induction t generalizing skip before with
  | nil => simp [piecesFrom] at h
  | cons c t ih =>
      have hlater : ∀ {skip}, .hit hit ∈ p.piecesFrom skip (some c) t →
          ∃ u rest, c :: t = u ++ rest ∧ p.matchAt ⟨lastAfter before u, rest⟩ = some hit := by
        intro skip hmem
        obtain ⟨u, rest, rfl, hmatch⟩ := ih hmem
        exact ⟨c :: u, rest, rfl, hmatch⟩
      cases skip with
      | succ skip => exact hlater h
      | zero =>
          rw [piecesFrom] at h
          split at h
          next found hhere =>
            rcases List.mem_cons.1 h with heq | hmem
            · cases heq
              exact ⟨[], c :: t, rfl, hhere⟩
            · exact hlater hmem
          next =>
            rcases List.mem_cons.1 h with heq | hmem
            · cases heq
            · exact hlater hmem

/-- The first match is the one that stands after a stretch in which nothing
starts. -/
theorem first?_of_clear {hit : Hit} (hclear : p.Clear none t (u ++ rest))
    (hmatch : p.matchAt ⟨lastAfter none t, u ++ rest⟩ = some hit) (htext : hit.text = u)
    (hne : u ≠ []) : p.first? (t ++ (u ++ rest)) = some (t, hit, rest) := by
  rw [first?_eq]
  generalize none = before at hclear hmatch
  induction t generalizing before with
  | nil =>
      obtain ⟨c, v, rfl⟩ := List.exists_cons_of_ne_nil hne
      have hhere : p.matchAt ⟨before, c :: (v ++ rest)⟩ = some hit := hmatch
      show p.firstFrom before (c :: (v ++ rest)) = _
      rw [firstFrom, hhere]
      show some ([], hit, (c :: v ++ rest).drop hit.text.length) = _
      rw [htext, List.drop_left]
  | cons c t ih =>
      obtain ⟨hhere, htail⟩ := clear_cons.1 hclear
      rw [List.cons_append, firstFrom, hhere]
      show Option.map _ (p.firstFrom (some c) (t ++ (u ++ rest))) = _
      rw [ih (some c) htail hmatch]
      rfl

theorem rewriteFirst_of_first? {write : Hit → Text} {hit : Hit} (h : p.first? t = some (u, hit, rest)) :
    p.rewriteFirst write t = u ++ (write hit ++ rest) := by
  rw [rewriteFirst, h]
  exact List.append_assoc ..

/-- Nothing is found exactly if nothing starts anywhere. -/
theorem occursIn_eq_false_iff : p.occursIn t = false ↔ p.Clear none t [] := by
  rw [occursIn, first?_eq, Option.isSome_eq_false_iff, Option.isNone_iff_eq_none]
  generalize none = before
  induction t generalizing before with
  | nil => exact ⟨fun _ => clear_nil, fun _ => rfl⟩
  | cons c t ih =>
      rw [clear_cons, List.append_nil, ← ih, firstFrom]
      cases hhere : p.matchAt ⟨before, c :: t⟩ with
      | none => simp
      | some hit => simp

-- ========================================================= replacing matches

/-- What a replacement makes of a text: characters outside matches stay, a match
becomes what `write` makes of it. -/
inductive Rewritten (p : Pattern) (write : Hit → Text) : Option Char → Text → Text → Prop
  | nil (before : Option Char) : Rewritten p write before [] []
  | plain (before : Option Char) (c : Char) (t new : Text)
      (hhere : p.matchAt ⟨before, c :: t⟩ = none) (htail : Rewritten p write (some c) t new) :
      Rewritten p write before (c :: t) (c :: new)
  | hit (before : Option Char) (h : Hit) (t new : Text) (hne : h.text ≠ [])
      (hhere : p.matchAt ⟨before, h.text ++ t⟩ = some h)
      (htail : Rewritten p write (lastAfter before h.text) t new) :
      Rewritten p write before (h.text ++ t) (write h ++ new)

/-- A stretch in which nothing starts stays. -/
theorem Rewritten.clear {write : Hit → Text} {new : Text}
    (h : Rewritten p write (lastAfter before t) rest new) (hclear : p.Clear before t rest) :
    Rewritten p write before (t ++ rest) (t ++ new) := by
  induction t generalizing before with
  | nil => exact h
  | cons c t ih =>
      obtain ⟨hhere, htail⟩ := clear_cons.1 hclear
      exact .plain before c _ _ hhere (ih h htail)

/-- A pattern whose matches are never empty rewrites every text. -/
theorem rewritten_pieces {write : Hit → Text}
    (hne : ∀ before t h, p.matchAt ⟨before, t⟩ = some h → h.text ≠ []) (before : Option Char)
    (t : Text) :
    Rewritten p write before t ((p.piecesFrom 0 before t).flatMap (Piece.write write)) := by
  -- on the length: a match takes several characters at once
  induction hlen : t.length using Nat.strongRecOn generalizing before t with
  | ind n ih =>
      cases t with
      | nil => exact .nil before
      | cons c t =>
          cases hhere : p.matchAt ⟨before, c :: t⟩ with
          | none =>
              have htail := ih t.length (by rw [← hlen]; exact Nat.lt_succ_self _) (some c) t rfl
              rw [piecesFrom, hhere]
              exact .plain before c t _ hhere htail
          | some hit =>
              obtain ⟨rest, htext, -⟩ := matchAt_sound hhere
              have hpos := List.length_pos_iff.2 (hne _ _ _ hhere)
              rw [htext] at hhere hlen ⊢
              rw [List.length_append] at hlen
              have htail := ih rest.length (by omega) (lastAfter before hit.text) rest rfl
              rw [piecesFrom_of_hit hhere rfl (hne _ _ _ hhere)]
              exact .hit before hit rest _ (hne _ _ _ hhere) hhere htail

theorem rewritten_rewrite
    (hne : ∀ before t h, p.matchAt ⟨before, t⟩ = some h → h.text ≠ []) (write : Hit → Text)
    (t : Text) :
    Rewritten p write none t (p.rewrite write t) := by
  rw [rewrite, pieces_eq]
  exact rewritten_pieces hne none t

/-- Where one stretch of a text is a match and nothing else is, that stretch is
replaced. -/
theorem rewrite_of_hit {write : Hit → Text} {a b : Text} {hit : Hit}
    (hfront : p.Clear none a (hit.text ++ b))
    (hmatch : p.matchAt ⟨lastAfter none a, hit.text ++ b⟩ = some hit) (hne : hit.text ≠ [])
    (hback : p.Clear (lastAfter none (a ++ hit.text)) b []) :
    p.rewrite write (a ++ (hit.text ++ b)) = a ++ (write hit ++ b) := by
  have hpieces := piecesFrom_of_clear hback
  have hplain : ∀ t : Text, (t.map Piece.plain).flatMap (Piece.write write) = t := by
    intro t
    rw [List.flatMap_map]
    exact List.flatMap_singleton' t
  rw [List.append_nil, lastAfter_append, piecesFrom, List.append_nil] at hpieces
  rw [rewrite, pieces_eq, piecesFrom_of_clear hfront, piecesFrom_of_hit hmatch rfl hne, hpieces,
    List.flatMap_append, List.flatMap_cons, hplain, hplain]
  rfl

/-- What a replacement makes of a text is one text. -/
theorem Rewritten.rewrite_eq {write : Hit → Text} {new : Text}
    (h : Rewritten p write none t new) : p.rewrite write t = new := by
  rw [rewrite, pieces_eq]
  generalize none = before at h ⊢
  induction h with
  | nil => rfl
  | plain before c t new hhere htail ih =>
      rw [piecesFrom, hhere]
      exact congrArg (c :: ·) ih
  | hit before h t new hne hhere htail ih =>
      rw [piecesFrom_of_hit hhere rfl hne]
      exact congrArg (write h ++ ·) ih

/-- The pieces of a text make it up. -/
theorem flatten_pieces
    (hne : ∀ before t h, p.matchAt ⟨before, t⟩ = some h → h.text ≠ []) (t : Text) :
    ((p.pieces t).map Piece.text).flatten = t := by
  have hsame := rewritten_rewrite hne Hit.text t
  have hflat : p.rewrite Hit.text t = ((p.pieces t).map Piece.text).flatten := by
    have hwrite : Piece.write Hit.text = Piece.text := by
      funext piece
      cases piece <;> rfl
    rw [rewrite, List.flatMap, hwrite]
  rw [← hflat]
  clear hflat
  generalize p.rewrite Hit.text t = new at hsame ⊢
  generalize none = before at hsame
  induction hsame with
  | nil => rfl
  | plain before c t new hhere htail ih => rw [ih]
  | hit before h t new hne hhere htail ih => rw [ih]

/-- A text in which nothing starts stays as it is. -/
theorem rewrite_of_clear {write : Hit → Text} (h : p.Clear none t []) :
    p.rewrite write t = t := by
  have hpieces := piecesFrom_of_clear h
  rw [List.append_nil] at hpieces
  rw [rewrite, pieces_eq, hpieces, piecesFrom, List.append_nil, List.flatMap_map]
  exact List.flatMap_singleton' t

-- ========================================================== deleting matches

/-- A text from a place on without the matches of a pattern. -/
def deleteFrom (p : Pattern) (before : Option Char) (t : Text) : Text :=
  (p.piecesFrom 0 before t).flatMap (Piece.write fun _ => [])

theorem delete_eq_deleteFrom (p : Pattern) (t : Text) : p.delete t = p.deleteFrom none t := by
  rw [delete, rewrite, pieces_eq]
  rfl

theorem deleteFrom_of_clear (h : p.Clear before t rest) :
    p.deleteFrom before (t ++ rest) = t ++ p.deleteFrom (lastAfter before t) rest := by
  rw [deleteFrom, piecesFrom_of_clear h, List.flatMap_append, List.flatMap_map]
  exact congrArg (· ++ _) (List.flatMap_singleton' t)

theorem deleteFrom_of_hit {hit : Hit} (hmatch : p.matchAt ⟨before, t ++ rest⟩ = some hit) (htext : hit.text = t)
    (hne : t ≠ []) : p.deleteFrom before (t ++ rest) = p.deleteFrom (lastAfter before t) rest := by
  rw [deleteFrom, piecesFrom_of_hit hmatch htext hne]
  rfl

/-- Where no match becomes longer, the text does not. -/
theorem Rewritten.length_le {write : Hit → Text} {new : Text}
    (hwrite : ∀ before t h, p.matchAt ⟨before, t⟩ = some h → (write h).length ≤ h.text.length)
    (h : Rewritten p write before t new) : new.length ≤ t.length := by
  induction h with
  | nil => exact Nat.le_refl _
  | plain before c t new hhere htail ih => exact Nat.succ_le_succ ih
  | hit before h t new hne hhere htail ih =>
      rw [List.length_append, List.length_append]
      exact Nat.add_le_add (hwrite _ _ _ hhere) ih

/-- A text that is as long without its matches has none. -/
theorem Rewritten.clear_of_length_le {new : Text} (h : Rewritten p (fun _ => []) before t new)
    (hlength : t.length ≤ new.length) : p.Clear before t [] := by
  induction h with
  | nil => exact clear_nil
  | plain before c t new hhere htail ih =>
      rw [clear_cons, List.append_nil]
      exact ⟨hhere, ih (Nat.le_of_succ_le_succ hlength)⟩
  | hit before h t new hne hhere htail ih =>
      have hrest := htail.length_le fun _ _ _ _ => Nat.zero_le _
      have hpos := List.length_pos_iff.2 hne
      rw [List.nil_append, List.length_append] at hlength
      omega

/-- A text is shorter without what occurs in it. -/
theorem length_delete_lt (hne : ∀ before t h, p.matchAt ⟨before, t⟩ = some h → h.text ≠ [])
    (hoccurs : p.occursIn t = true) : (p.delete t).length < t.length := by
  refine Nat.lt_of_not_le fun hlength => ?_
  have hclear := (rewritten_rewrite hne (fun _ => []) t).clear_of_length_le hlength
  rw [occursIn_eq_false_iff.2 hclear] at hoccurs
  cases hoccurs

end SiteScaffold.Pattern

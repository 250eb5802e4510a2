/-
The table of matches. A pattern turns the outcomes of what follows it, given for
every place of a text, into the outcomes of itself followed by that, again for
every place. Each part of a pattern passes over the text once, from the right, so
the work is the length of the text times the size of the pattern, however many
ways through the pattern there are.

The main statement, `found_eq`, says that the table holds at every place what
running the pattern there comes to.
-/
import SiteScaffold.Pattern.Basic

namespace SiteScaffold

namespace Pattern

/-- What the table needs to know of a place: how many characters are left, and the
characters on both sides. -/
structure Place where
  left : Nat
  before : Option Char
  next : Option Char

/-- The places of a text, from the left. -/
def places (before : Option Char) (t : Text) : List Place :=
  List.zipWith (fun (left, before) next => ⟨left, before, next⟩)
    ((List.range (t.length + 1)).reverse.zip (before :: t.map some)) (t.map some ++ [none])

/-- Outcomes of a run of characters of a class: where one comes next, `choose` picks
between the outcome of going on and that of stopping. -/
def scan (ok : Char → Bool) (choose : Option Found → Option Found → Option Found)
    (all : List Place) (after : List (Option Found)) : List (Option Found) :=
  (all.zip after).foldr (fun (here, stop) done =>
    (if here.next.any ok then choose done.head?.join stop else stop) :: done) []

/-- Outcomes at the places that pass a test, and none elsewhere. -/
def onlyWhere (test : Place → Bool) (all : List Place) (after : List (Option Found)) :
    List (Option Found) :=
  List.zipWith (fun here found => if test here then found else none) all after

/-- The outcomes of a pattern followed by what `after` tells of. -/
def table (p : Pattern) (all : List Place) (after : List (Option Found)) :
    List (Option Found) :=
  match p with
  | empty => after
  | one ok => onlyWhere (·.next.any ok) all (after.drop 1 ++ [none])
  | many ok => scan ok (fun longer stop => longer <|> stop) all after
  | few ok => scan ok (fun longer stop => stop <|> longer) all after
  | seq first second => first.table all (second.table all after)
  | alt first second =>
    List.zipWith (fun a b => a <|> b) (first.table all after) (second.table all after)
  | capture n body =>
    List.zipWith (fun here found => found.map (·.opened n here.left)) all
      (body.table all
        (List.zipWith (fun here found => found.map (·.closed here.left)) all after))
  | lineStart => onlyWhere (·.before.all (· = '\n')) all after
  | lineEnd => onlyWhere (·.next.all (· = '\n')) all after
  | textEnd => onlyWhere (·.left = 0) all after
  | boundary =>
    onlyWhere (fun here => (here.before.any Text.isWord) != (here.next.any Text.isWord)) all after

/-- The matches of a pattern that start at the places of a text, from the left. -/
def found (p : Pattern) (before : Option Char) (t : Text) : List (Option Found) :=
  let all := places before t
  p.table all (all.map fun here => some (.ending here.left))

-- ================================================ the table is right

/-- The cursors at the places of a text, from the left. -/
def cursors : Option Char → Text → List Cursor
  | before, [] => [⟨before, []⟩]
  | before, c :: rest => ⟨before, c :: rest⟩ :: cursors (some c) rest

/-- What the table knows of a cursor. -/
def Place.ofCursor (here : Cursor) : Place := ⟨here.rest.length, here.before, here.rest.head?⟩

theorem places_eq (before : Option Char) (t : Text) :
    places before t = (cursors before t).map Place.ofCursor := by
  induction t generalizing before with
  | nil => rfl
  | cons c rest ih =>
    rw [cursors, List.map_cons, ← ih]
    simp [places, Place.ofCursor, List.range_succ]

theorem scan_eq (ok : Char → Bool) (choose : Option Found → Option Found → Option Found)
    (run next : Cursor → Option Found)
    (hnil : ∀ before, run ⟨before, []⟩ = next ⟨before, []⟩)
    (hcons : ∀ before c rest, run ⟨before, c :: rest⟩ =
      if ok c then choose (run ⟨some c, rest⟩) (next ⟨before, c :: rest⟩)
      else next ⟨before, c :: rest⟩)
    (before : Option Char) (t : Text) :
    scan ok choose ((cursors before t).map Place.ofCursor) ((cursors before t).map next)
      = (cursors before t).map run := by
  induction t generalizing before with
  | nil => simp [scan, cursors, Place.ofCursor, hnil]
  | cons c rest ih =>
    have h := ih (some c)
    have hhead : ((cursors (some c) rest).map run).head?.join = run ⟨some c, rest⟩ := by
      cases rest <;> simp [cursors]
    simp only [scan] at h ⊢
    simp only [cursors, List.map_cons, List.zip_cons_cons, List.foldr_cons, h, hhead, hcons]
    rfl

theorem onlyWhere_eq (test : Place → Bool) (next : Cursor → Option Found) (all : List Cursor) :
    onlyWhere test (all.map Place.ofCursor) (all.map next)
      = all.map fun here => if test (.ofCursor here) then next here else none := by
  induction all with
  | nil => rfl
  | cons here rest ih =>
    simp only [onlyWhere] at ih ⊢
    simp [ih]

theorem zipWith_map_map {α β γ : Type} (f : α → β → γ) (g : Cursor → α) (h : Cursor → β)
    (all : List Cursor) :
    List.zipWith f (all.map g) (all.map h) = all.map fun here => f (g here) (h here) := by
  induction all with
  | nil => rfl
  | cons here rest ih => simp [ih]

theorem table_one (ok : Char → Bool) (next : Cursor → Option Found) (before : Option Char)
    (t : Text) :
    onlyWhere (·.next.any ok) ((cursors before t).map Place.ofCursor)
        (((cursors before t).map next).drop 1 ++ [none])
      = (cursors before t).map ((one ok).run · next) := by
  induction t generalizing before with
  | nil => simp [onlyWhere, cursors, run, Place.ofCursor]
  | cons c rest ih =>
    have h := ih (some c)
    cases rest with
    | nil => simp [onlyWhere, cursors, run, Place.ofCursor]
    | cons d rest =>
      simp only [onlyWhere] at h ⊢
      simp only [cursors, List.map_cons, List.drop_succ_cons, List.drop_zero, List.cons_append,
        List.zipWith_cons_cons, List.cons.injEq] at h ⊢
      exact ⟨rfl, h⟩

/-- The table of a pattern holds what running it comes to, at every place. -/
theorem table_eq (p : Pattern) (next : Cursor → Option Found) (before : Option Char) (t : Text) :
    p.table ((cursors before t).map Place.ofCursor) ((cursors before t).map next)
      = (cursors before t).map (p.run · next) := by
  induction p generalizing next with
  | empty => simp [table, run]
  | one ok => rw [table]; exact table_one ok next before t
  | many ok =>
    rw [table]
    exact scan_eq ok _ _ next (fun _ => by simp [run, runMany])
      (fun _ _ _ => by simp [run, runMany]) before t
  | few ok =>
    rw [table]
    exact scan_eq ok _ _ next (fun _ => by simp [run, runFew])
      (fun _ _ _ => by simp [run, runFew]) before t
  | seq first second ihFirst ihSecond => simp only [table, ihSecond, ihFirst, run]
  | alt first second ihFirst ihSecond =>
    simp only [table, ihSecond, ihFirst, zipWith_map_map, run]
  | capture n body ih =>
    have h := ih fun stop => (next stop).map (·.closed (Place.ofCursor stop).left)
    simp only [table, zipWith_map_map, h, run]
    rfl
  | lineStart => simp only [table, onlyWhere_eq, run]; rfl
  | lineEnd => simp only [table, onlyWhere_eq, run]; rfl
  | textEnd =>
    simp only [table, onlyWhere_eq, run]
    refine List.map_congr_left fun here _ => ?_
    obtain ⟨before, rest⟩ := here
    cases rest <;> simp [Place.ofCursor]
  | boundary => simp only [table, onlyWhere_eq, run]; rfl

/-- The matches found in a text are those that running the pattern comes to. -/
theorem found_eq (p : Pattern) (before : Option Char) (t : Text) :
    p.found before t = (cursors before t).map p.runAt := by
  have h := p.table_eq (fun stop => some (.ending stop.rest.length)) before t
  simp only [found, places_eq, List.map_map]
  exact h

end Pattern

end SiteScaffold

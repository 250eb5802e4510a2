/-
Searching a text for a pattern. A text falls apart into the matches of a
pattern, found from the left without overlaps, and the characters between them;
every search and every replacement is read off these pieces.

The pieces are stated twice: by trying the pattern at each place, which is what
they mean, and by one walk along the table of matches, which is how they are
found. `pieces_eq` and `first?_eq` say that the two agree.

The patterns searched for here all match at least one character, so a search
never has to step over an empty match.
-/
import SiteScaffold.Pattern.Table

namespace SiteScaffold.Pattern

/-- A piece of a searched text. -/
inductive Piece where
  /-- A character outside every match. -/
  | plain (c : Char)
  /-- A match. -/
  | hit (h : Hit)
  deriving Repr, DecidableEq

namespace Piece

/-- The text a piece stands for. -/
def text : Piece → Text
  | plain c => [c]
  | hit h => h.text

/-- The match a piece is, if it is one. -/
def hit? : Piece → Option Hit
  | plain _ => none
  | hit h => some h

/-- The text with a match rewritten. -/
def write (rewritten : Hit → Text) : Piece → Text
  | plain c => [c]
  | hit h => rewritten h

end Piece

-- ==================================================== what is meant

/-- The pieces from a place on, while `skip` characters of a match are still to
be passed over. -/
def piecesFrom (p : Pattern) : (skip : Nat) → (before : Option Char) → Text → List Piece
  | _, _, [] => []
  | skip + 1, _, c :: rest => piecesFrom p skip (some c) rest
  | 0, before, c :: rest =>
    match p.matchAt ⟨before, c :: rest⟩ with
    | some h => .hit h :: piecesFrom p (h.text.length - 1) (some c) rest
    | none => .plain c :: piecesFrom p 0 (some c) rest

/-- The first match from a place on, with the text before and after it. -/
def firstFrom (p : Pattern) : (before : Option Char) → Text → Option (Text × Hit × Text)
  | _, [] => none
  | before, c :: rest =>
    match p.matchAt ⟨before, c :: rest⟩ with
    | some h => some ([], h, (c :: rest).drop h.text.length)
    | none =>
      (p.firstFrom (some c) rest).map fun (front, h, back) => (c :: front, h, back)

-- ================================================== how it is found

/-- The pieces on the way along the table, after those in `back`. `left` is the
number of characters ahead. -/
def walk (left skip : Nat) (back : List Piece) : List (Option Found) → Text → List Piece
  | found :: table, c :: rest =>
    match skip, found with
    | skip + 1, _ => walk (left - 1) skip back table rest
    | 0, some found =>
      let h := found.hit left (c :: rest)
      walk (left - 1) (h.text.length - 1) (.hit h :: back) table rest
    | 0, none => walk (left - 1) 0 (.plain c :: back) table rest
  | _, _ => back.reverse

/-- The first match on the way along the table, after the characters in
`back`. -/
def walkToFirst (left : Nat) (back : Text) :
    List (Option Found) → Text → Option (Text × Hit × Text)
  | some found :: _, c :: rest =>
    let h := found.hit left (c :: rest)
    some (back.reverse, h, (c :: rest).drop h.text.length)
  | none :: table, c :: rest => walkToFirst (left - 1) (c :: back) table rest
  | _, _ => none

/-- The pieces of a text. -/
def pieces (p : Pattern) (t : Text) : List Piece := walk t.length 0 [] (p.found none t) t

/-- The first match in a text, with the text before and after it. -/
def first? (p : Pattern) (t : Text) : Option (Text × Hit × Text) :=
  walkToFirst t.length [] (p.found none t) t

theorem walk_eq (p : Pattern) (skip : Nat) (back : List Piece) (before : Option Char)
    (t : Text) :
    walk t.length skip back ((cursors before t).map p.runAt) t
      = back.reverse ++ p.piecesFrom skip before t := by
  induction t generalizing skip back before with
  | nil => simp [cursors, walk, piecesFrom]
  | cons c rest ih =>
    cases skip with
    | succ skip => simpa [cursors, walk, piecesFrom] using ih skip back (some c)
    | zero =>
      cases h : p.runAt ⟨before, c :: rest⟩ with
      | some found => simp [cursors, walk, piecesFrom, matchAt, h, ih]
      | none => simp [cursors, walk, piecesFrom, matchAt, h, ih]

theorem walkToFirst_eq (p : Pattern) (back : Text) (before : Option Char) (t : Text) :
    walkToFirst t.length back ((cursors before t).map p.runAt) t
      = (p.firstFrom before t).map fun (front, h, rest) => (back.reverse ++ front, h, rest) := by
  induction t generalizing back before with
  | nil => simp [cursors, walkToFirst, firstFrom]
  | cons c rest ih =>
    cases h : p.runAt ⟨before, c :: rest⟩ with
    | some found => simp [cursors, walkToFirst, firstFrom, matchAt, h]
    | none => simp [cursors, walkToFirst, firstFrom, matchAt, h, ih, Function.comp_def]

/-- The pieces found are the pieces meant. -/
theorem pieces_eq (p : Pattern) (t : Text) : p.pieces t = p.piecesFrom 0 none t := by
  simp [pieces, found_eq, walk_eq]

/-- The match found first is the one meant. -/
theorem first?_eq (p : Pattern) (t : Text) : p.first? t = p.firstFrom none t := by
  simp [first?, found_eq, walkToFirst_eq]

-- =============================================== searches and edits

/-- The matches in a text, from the left. -/
def hits (p : Pattern) (t : Text) : List Hit := (p.pieces t).filterMap Piece.hit?

/-- Whether the pattern matches somewhere in the text. -/
def occursIn (p : Pattern) (t : Text) : Bool := (p.first? t).isSome

/-- The text with every match rewritten. -/
def rewrite (p : Pattern) (write : Hit → Text) (t : Text) : Text :=
  (p.pieces t).flatMap (Piece.write write)

/-- The text without its matches. -/
def delete (p : Pattern) (t : Text) : Text := p.rewrite (fun _ => []) t

/-- The text with its first match rewritten. -/
def rewriteFirst (p : Pattern) (write : Hit → Text) (t : Text) : Text :=
  match p.first? t with
  | some (front, h, back) => front ++ write h ++ back
  | none => t

end SiteScaffold.Pattern

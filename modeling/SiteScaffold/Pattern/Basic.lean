/-
Patterns of text: single characters of a class, greedy and lazy runs of them,
sequence, ordered choice, captures, and conditions on the place in the text.
Repetition is of single characters only, which is all the program's patterns
need and what keeps matching structurally recursive.

This module says what a match is. A match is the first way through the pattern in
an order of preference: an earlier alternative, a longer greedy run or a shorter
lazy run comes first. A pattern is therefore run against a continuation, which
says whether the rest of the match works out. To try all ways in turn takes too
long on some texts; the table of matches in the next module finds the same ones
in time proportional to the text.
-/
import SiteScaffold.Text.Word

namespace SiteScaffold

/-- A pattern of text. -/
inductive Pattern where
  /-- The empty text. -/
  | empty
  /-- One character of a class. -/
  | one (ok : Char → Bool)
  /-- As many characters of a class as the rest of the match allows. -/
  | many (ok : Char → Bool)
  /-- As few characters of a class as the rest of the match allows. -/
  | few (ok : Char → Bool)
  /-- One pattern after the other. -/
  | seq (first second : Pattern)
  /-- The first pattern, or else the second. -/
  | alt (first second : Pattern)
  /-- The text the pattern matches is kept under a number. -/
  | capture (n : Nat) (body : Pattern)
  /-- The start of a line. -/
  | lineStart
  /-- The end of a line, before its newline. -/
  | lineEnd
  /-- The end of the text. -/
  | textEnd
  /-- The edge of a word. -/
  | boundary

/-- A place in a text: the character before it and the text after it. -/
structure Cursor where
  before : Option Char
  rest : Text
  deriving Repr, DecidableEq

namespace Cursor

/-- Whether the place is the start of a line. -/
def atLineStart (here : Cursor) : Bool := here.before.all (· = '\n')

/-- Whether the place is the end of a line. -/
def atLineEnd (here : Cursor) : Bool := here.rest.head?.all (· = '\n')

/-- Whether exactly one side of the place is a word character. -/
def atBoundary (here : Cursor) : Bool :=
  (here.before.any Text.isWord) != (here.rest.head?.any Text.isWord)

end Cursor

namespace Pattern

instance : Append Pattern := ⟨seq⟩

instance : OrOp Pattern := ⟨alt⟩

/-- The pattern that matches exactly one text. -/
def literal : Text → Pattern
  | [] => empty
  | [c] => one (· = c)
  | c :: rest => seq (one (· = c)) (literal rest)

/-- The characters that differ from a lower-case letter in case alone; the long
s and the Kelvin sign are two of them. -/
def eitherCase (letter c : Char) : Bool :=
  c.toLower = letter || (letter = 's' && c = 'ſ') || (letter = 'k' && c = '\u212a')

/-- The pattern that matches a lower-case text in either case. -/
def literalEitherCase : Text → Pattern
  | [] => empty
  | c :: rest => seq (one (eitherCase c)) (literalEitherCase rest)

instance : Coe String Pattern := ⟨fun s => literal s.toList⟩

/-- One or more characters of a class, as many as possible. -/
def oneOrMore (ok : Char → Bool) : Pattern := one ok ++ many ok

/-- The pattern, or nothing if it does not match. -/
def optional (p : Pattern) : Pattern := alt p empty

-- ======================================================== matching

/-- What a match came to from a place on. Places are told by the number of
characters after them: `left` is where the match ends, `ends` are the ends of
captures whose start is still to be met, the innermost first, and `kept` are the
captures, each with its start and its end. -/
structure Found where
  left : Nat
  ends : List Nat
  kept : List (Nat × Nat × Nat)
  deriving Repr, DecidableEq

namespace Found

/-- A match that ends where `left` characters are left. -/
def ending (left : Nat) : Found := ⟨left, [], []⟩

/-- A capture ends here. -/
def closed (found : Found) (left : Nat) : Found := { found with ends := left :: found.ends }

/-- The innermost capture that ends later starts here. -/
def opened (found : Found) (n left : Nat) : Found :=
  match found.ends with
  | [] => found
  | stop :: ends => { found with ends, kept := (n, left, stop) :: found.kept }

end Found

/-- The ways to match a greedy run, the longest first. -/
def runMany (ok : Char → Bool) (next : Cursor → Option Found) :
    Option Char → Text → Option Found
  | before, [] => next ⟨before, []⟩
  | before, c :: rest =>
    if ok c then runMany ok next (some c) rest <|> next ⟨before, c :: rest⟩
    else next ⟨before, c :: rest⟩

/-- The ways to match a lazy run, the shortest first. -/
def runFew (ok : Char → Bool) (next : Cursor → Option Found) :
    Option Char → Text → Option Found
  | before, [] => next ⟨before, []⟩
  | before, c :: rest =>
    if ok c then next ⟨before, c :: rest⟩ <|> runFew ok next (some c) rest
    else next ⟨before, c :: rest⟩

/-- The first way to match the pattern at a place after which `next` succeeds. -/
def run (p : Pattern) (here : Cursor) (next : Cursor → Option Found) : Option Found :=
  match p with
  | empty => next here
  | one ok =>
    match here.rest with
    | [] => none
    | c :: rest => if ok c then next ⟨some c, rest⟩ else none
  | many ok => runMany ok next here.before here.rest
  | few ok => runFew ok next here.before here.rest
  | seq first second => first.run here fun mid => second.run mid next
  | alt first second => first.run here next <|> second.run here next
  | capture n body =>
    (body.run here fun stop => (next stop).map (·.closed stop.rest.length)).map
      (·.opened n here.rest.length)
  | lineStart => if here.atLineStart then next here else none
  | lineEnd => if here.atLineEnd then next here else none
  | textEnd => if here.rest.isEmpty then next here else none
  | boundary => if here.atBoundary then next here else none

/-- The match that starts at a place, whatever follows it. -/
def runAt (p : Pattern) (here : Cursor) : Option Found :=
  p.run here fun stop => some (.ending stop.rest.length)

-- =========================================================== hits

/-- A stretch of text that a pattern matched, with its captures. -/
structure Hit where
  text : Text
  kept : List (Nat × Text)
  deriving Repr, DecidableEq

/-- What a capture kept, if a part of the match went through it. -/
def Hit.group? (hit : Hit) (n : Nat) : Option Text := hit.kept.lookup n

/-- What a capture kept; nothing if no part of the match went through it. -/
def Hit.group (hit : Hit) (n : Nat) : Text := (hit.group? n).getD []

/-- The stretch of text that a match starting where `left` characters are left
covers. -/
def Found.hit (found : Found) (left : Nat) (rest : Text) : Hit :=
  ⟨rest.take (left - found.left),
    found.kept.map fun (n, start, stop) => (n, (rest.drop (left - start)).take (start - stop))⟩

/-- The match that starts at a place, if there is one. -/
def matchAt (p : Pattern) (here : Cursor) : Option Hit :=
  (p.runAt here).map (·.hit here.rest.length here.rest)

end Pattern

end SiteScaffold

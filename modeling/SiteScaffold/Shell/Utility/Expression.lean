/-
Regular expressions as utilities take them. In a basic expression the marks for
groups, alternatives and counts stand after a backslash, in an extended one they
stand alone. Of all matches at the first place the longest one counts.
-/
import SiteScaffold.Shell.Arithmetic
import SiteScaffold.Shell.Glob

namespace SiteScaffold.Shell

/-- A regular expression. -/
inductive Regular where
  | empty
  | one (ok : Char → Bool)
  | start
  | stop
  | edge (inside : Bool)
  | seq (first second : Regular)
  | either (first second : Regular)
  | group (n : Nat) (body : Regular)
  | times (least : Nat) (most : Option Nat) (body : Regular)
  /-- The text that a group matched. -/
  | same (n : Nat)

namespace Regular

/-- How far a match has come: the character before the place, the text after it,
how many characters were passed, and what groups matched, the last first. -/
structure Here where
  before : Option Char
  rest : Raw
  passed : Nat
  groups : List (Nat × Raw)

/-- The way that reaches further. -/
def further (a b : Option Here) : Option Here :=
  match a, b with
  | some x, some y => if y.passed > x.passed then some y else some x
  | some x, none => some x
  | none, b => b

/-- Passes over characters. -/
def Here.pass (here : Here) (n : Nat) : Here :=
  { here with
    before := if n = 0 then here.before else here.rest[n - 1]?
    rest := here.rest.drop n
    passed := here.passed + n }

/-- Repeats a match, as often as the rest allows; each time it has to pass over
something beyond the least number of times. -/
def repeated (body : (Here → Option Here) → Here → Option Here) (next : Here → Option Here)
    (fuel least : Nat) (most : Option Nat) (here : Here) : Option Here :=
  match fuel with
  | 0 => next here
  | fuel + 1 =>
    let more := if most = some 0 then none
      else body (fun there =>
        if there.passed = here.passed && least = 0 then none
        else repeated body next fuel (least - 1) (most.map (· - 1)) there) here
    match more with
    | some found => some found
    | none => if least = 0 then next here else none

/-- The match from a place on after which `next` succeeds. -/
def run : Regular → (Here → Option Here) → Here → Option Here
  | empty, next => next
  | one ok, next => fun here =>
    match here.rest with
    | c :: _ => if ok c then next (here.pass 1) else none
    | [] => none
  | start, next => fun here => if here.before.isNone then next here else none
  | stop, next => fun here => if here.rest.isEmpty then next here else none
  | edge inside, next => fun here =>
    let isWord := fun (c : Char) => c.isAlphanum || c = '_'
    let atEdge := here.before.any isWord != here.rest.head?.any isWord
    if atEdge = inside then next here else none
  | seq first second, next => run first (run second next)
  | either first second, next => fun here => further (run first next here) (run second next here)
  | group n body, next => fun here =>
    run body (fun there => next { there with
      groups := (n, here.rest.take (there.passed - here.passed)) :: there.groups }) here
  | times least most body, next => fun here =>
    repeated (run body) next (here.rest.length + least + 1) least most here
  | same n, next => fun here =>
    match here.groups.lookup n with
    | none => none
    | some t => if t.isPrefixOf here.rest then next (here.pass t.length) else none

/-- A match: what stands before it, what was matched, what stands after it, and
what the groups matched. -/
structure Match where
  before : Raw
  hit : Raw
  after : Raw
  groups : List (Nat × Raw)

/-- The match at the start of a text. -/
def matchAt (r : Regular) (before : Option Char) (t : Raw) : Option Match :=
  (run r some ⟨before, t, 0, []⟩).map fun there =>
    ⟨[], t.take there.passed, there.rest, there.groups⟩

/-- The first match in a text, after what was passed over. -/
def firstFrom (r : Regular) (back : Raw) (before : Option Char) (t : Raw) : Option Match :=
  match r.matchAt before t, t with
  | some found, _ => some { found with before := back.reverse }
  | none, [] => none
  | none, c :: rest => firstFrom r (c :: back) (some c) rest

/-- The first match in a text. -/
def first? (r : Regular) (t : Raw) : Option Match := r.firstFrom [] none t

-- =========================================================== reading

/-- How expressions are read: whether they are extended, and whether the case of
letters counts. -/
structure Manner where
  extended : Bool
  anyCase : Bool

/-- A character of an expression. -/
def Manner.char (m : Manner) (c : Char) : Regular :=
  one fun d => d = c || (m.anyCase && d.toLower = c.toLower)

/-- The class that opens a text after its bracket. -/
def class? (m : Manner) (t : Raw) : Option (Regular × Raw) :=
  let (negated, t) : Bool × Raw := match t with
    | '^' :: rest => (true, rest)
    | _ => (false, t)
  let marked := t.map fun c => (c, decide (c ≠ '\\'))
  (Glob.items? (t.length + 1) true [] marked).map fun (items, rest) =>
    let holds := fun (c : Char) => items.any fun
      | .range first last => first ≤ c && c ≤ last
      | .named test => test c
    (one fun c => (holds c || (m.anyCase && (holds c.toLower || holds c.toUpper))) != negated,
      rest.map (·.1))

/-- The counts at the front of a text, up to a closing mark. -/
def counts? (close t : Raw) : Option (Nat × Option Nat × Raw) := do
  let (inner, rest) ← Text.cut? close t
  let (least, most) := Raw.cutAt ',' inner
  let number := fun (t : Raw) => if t.all Char.isDigit then some (Arithmetic.value 10 t) else none
  let least ← number least
  match most with
  | none => return (least, some least, rest)
  | some [] => return (least, none, rest)
  | some most => return (least, some (← number most), rest)

/-- An expression read up to a closing mark or the end: the alternatives before
this one, what was read of this one, and its last piece, which a mark may repeat. -/
structure Partial where
  before : Option Regular
  now : Regular
  last : Option Regular
  groups : Nat

namespace Partial

/-- What has been read as one expression. -/
def whole (p : Partial) : Regular :=
  let now := match p.last with
    | some piece => seq p.now piece
    | none => p.now
  match p.before with
  | some before => either before now
  | none => now

def push (p : Partial) (piece : Regular) : Partial :=
  { p with
    now := match p.last with
      | some last => seq p.now last
      | none => p.now
    last := some piece }

end Partial

/-- Reads on in an expression, inside so many groups. -/
def readFrom (m : Manner) (fuel depth : Nat) (p : Partial) (t : Raw) :
    Option (Partial × Raw) :=
  match fuel with
  | 0 => none
  | fuel + 1 =>
    let go := readFrom m fuel depth
    let atStart := p.last.isNone
    let repeatLast := fun (least : Nat) (most : Option Nat) (rest : Raw) =>
      match p.last with
      | some piece => go { p with last := some (times least most piece) } rest
      | none => go (p.push (m.char (t.head?.getD '*'))) (t.drop 1)
    let openGroup := fun (rest : Raw) => do
      let n := p.groups + 1
      let (inner, rest) ← readFrom m fuel (depth + 1) ⟨none, empty, none, n⟩ rest
      go { p.push (group n inner.whole) with groups := inner.groups } rest
    let alternative := fun (rest : Raw) => go ⟨some p.whole, empty, none, p.groups⟩ rest
    match m.extended, t with
    | _, [] => if depth = 0 then some (p, []) else none
    | true, '(' :: rest => openGroup rest
    | false, '\\' :: '(' :: rest => openGroup rest
    | true, ')' :: rest => if depth = 0 then go (p.push (m.char ')')) rest else some (p, rest)
    | false, '\\' :: ')' :: rest => if depth = 0 then none else some (p, rest)
    | true, '|' :: rest => alternative rest
    | false, '\\' :: '|' :: rest => alternative rest
    | _, '*' :: rest => repeatLast 0 none rest
    | true, '+' :: rest => repeatLast 1 none rest
    | false, '\\' :: '+' :: rest => repeatLast 1 none rest
    | true, '?' :: rest => repeatLast 0 (some 1) rest
    | false, '\\' :: '?' :: rest => repeatLast 0 (some 1) rest
    | true, '{' :: rest =>
      match counts? ['}'] rest with
      | some (least, most, rest) => repeatLast least most rest
      | none => go (p.push (m.char '{')) rest
    | false, '\\' :: '{' :: rest => do
      let (least, most, rest) ← counts? ['\\', '}'] rest
      repeatLast least most rest
    | _, '.' :: rest => go (p.push (one fun _ => true)) rest
    | _, '[' :: rest => do
      let (piece, rest) ← class? m rest
      go (p.push piece) rest
    | true, '^' :: rest => go (p.push start) rest
    | false, '^' :: rest =>
      if atStart then go { p with now := seq p.now start } rest else go (p.push (m.char '^')) rest
    | true, '$' :: rest => go (p.push stop) rest
    | false, '$' :: rest =>
      let ends := rest = [] || (Text.after? ['\\', ')'] rest).isSome || (Text.after? ['\\', '|'] rest).isSome
      go (p.push (if ends then stop else m.char '$')) rest
    | _, '\\' :: c :: rest =>
      if '1' ≤ c && c ≤ '9' then go (p.push (same (c.toNat - '0'.toNat))) rest
      else
        match c with
        | 'w' => go (p.push (one Raw.isNameChar)) rest
        | 'W' => go (p.push (one fun c => !Raw.isNameChar c)) rest
        | 's' => go (p.push (one Raw.isBlank)) rest
        | 'S' => go (p.push (one fun c => !Raw.isBlank c)) rest
        | 'b' => go (p.push (edge true)) rest
        | 'B' => go (p.push (edge false)) rest
        | 'n' => go (p.push (m.char '\n')) rest
        | 't' => go (p.push (m.char '\t')) rest
        | _ => go (p.push (m.char c)) rest
    | _, ['\\'] => none
    | _, c :: rest => go (p.push (m.char c)) rest

/-- The expression that a text spells, if it spells one, and the number of its
groups. -/
def read? (m : Manner) (t : Raw) : Option (Regular × Nat) :=
  match readFrom m (t.length + 1) 0 ⟨none, empty, none, 0⟩ t with
  | some (p, []) => some (p.whole, p.groups)
  | _ => none

end Regular

end SiteScaffold.Shell

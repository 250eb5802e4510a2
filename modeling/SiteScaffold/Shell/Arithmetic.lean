/-
Arithmetic of scripts: whole numbers of 64 bits that wrap around, the operators
with their usual precedence, and variables, of which some may be set on the way.
What a condition rules out is read, but not evaluated.
-/
import SiteScaffold.Shell.Raw

namespace SiteScaffold.Shell

namespace Arithmetic

-- ========================================================= numbers

/-- The number of 64 bits that a number wraps around to. -/
def wrap (n : Int) : Int := Int.bmod n (Nat.pow 2 64)

/-- The bits of a number. -/
def bits (n : Int) : Nat := (n % Nat.pow 2 64).toNat

/-- The value of a digit in a base up to sixteen. -/
def digit? (base : Nat) (c : Char) : Option Nat :=
  let value :=
    if c.isDigit then some (c.toNat - '0'.toNat)
    else if 'a' ≤ c && c ≤ 'f' then some (c.toNat - 'a'.toNat + 10)
    else if 'A' ≤ c && c ≤ 'F' then some (c.toNat - 'A'.toNat + 10)
    else none
  value.filter (· < base)

/-- The value of digits in a base. -/
def value (base : Nat) (digits : Raw) : Nat :=
  digits.foldl (fun n c => n * base + (digit? base c).getD 0) 0

/-- The number without a sign that a text starts with, and the text after it:
hexadecimal after `0x`, octal after a zero. Without digits there is none. -/
def unsigned? (t : Raw) : Option (Nat × Raw) :=
  let read := fun (base : Nat) (t : Raw) =>
    let digits := t.takeWhile fun c => (digit? base c).isSome
    if digits = [] then none else some (value base digits, t.drop digits.length)
  match t with
  | '0' :: x :: rest =>
    match if x = 'x' || x = 'X' then read 16 rest else none with
    | some found => some found
    | none => read 8 t
  | '0' :: _ => read 8 t
  | _ => read 10 t

/-- The number a text starts with, after white space and a sign, and the text
after it; it need not fit 64 bits. -/
def signed? (t : Raw) : Option (Int × Raw) :=
  match t.dropWhile Raw.isBlank with
  | '-' :: rest => (unsigned? rest).map fun (n, rest) => (-(n : Int), rest)
  | '+' :: rest => (unsigned? rest).map fun (n, rest) => ((n : Int), rest)
  | rest => (unsigned? rest).map fun (n, rest) => ((n : Int), rest)

/-- The least and the largest number of 64 bits. -/
def fits (n : Int) : Bool := -Nat.pow 2 63 ≤ n && n < Nat.pow 2 63

/-- The number of 64 bits that is nearest. -/
def clamp (n : Int) : Int := max (-Nat.pow 2 63) (min n (Nat.pow 2 63 - 1))

/-- The number that the value of a variable spells; nothing stands for zero. -/
def ofValue? (t : Raw) : Option Int :=
  match signed? t with
  | some (n, rest) => if rest.all Raw.isBlank && fits n then some n else none
  | none => if t.all Raw.isBlank then some 0 else none

-- ========================================================== tokens

/-- A token of an expression. -/
inductive Lexeme where
  | number (n : Int)
  | name (n : Raw)
  | mark (m : Raw)
  deriving Repr, DecidableEq

/-- The marks, the longer ones first. -/
def marks : List Raw :=
  (["<<=", ">>=", "<<", ">>", "<=", ">=", "==", "!=", "&&", "||", "*=", "/=", "%=", "+=", "-=",
    "&=", "^=", "|=", "(", ")", "*", "/", "%", "+", "-", "<", ">", "&", "^", "|", "~", "!", "?",
    ":", "="] : List String).map String.toList

/-- The tokens of an expression, after those in `done`. A character that belongs
to none is a mark that has no meaning. -/
def lexemes (fuel : Nat) (done : List Lexeme) (t : Raw) : List Lexeme :=
  match fuel, t with
  | 0, _ | _, [] => done.reverse
  | fuel + 1, c :: rest =>
    if c = ' ' || c = '\t' || c = '\n' then lexemes fuel done rest
    else if Raw.isNameStart c then
      let name := t.takeWhile Raw.isNameChar
      lexemes fuel (.name name :: done) (t.drop name.length)
    else
      match if c.isDigit then unsigned? t else none with
      | some (n, rest) => lexemes fuel (.number (clamp n) :: done) rest
      | none =>
        match marks.find? fun m => (Text.after? m t).isSome with
        | some m => lexemes fuel (.mark m :: done) (t.drop m.length)
        | none => lexemes fuel (.mark [c] :: done) rest

-- ======================================================== operators

/-- The binary operators by how tightly they bind, the tightest first. -/
def levels : List (List Raw) :=
  [["*", "/", "%"], ["+", "-"], ["<<", ">>"], ["<", "<=", ">", ">="], ["==", "!="], ["&"], ["^"],
    ["|"]]

/-- How loosely a binary operator binds. -/
def level? (m : Raw) : Option Nat := levels.findIdx? (m ∈ ·)

def ofBool (b : Bool) : Int := if b then 1 else 0

/-- What a binary operator makes of two numbers; none for a division by zero. -/
def compute? (operator : Raw) (a b : Int) : Option Int :=
  match String.ofList operator with
  | "|" => some (wrap (Nat.lor (bits a) (bits b)))
  | "^" => some (wrap (Nat.xor (bits a) (bits b)))
  | "&" => some (wrap (Nat.land (bits a) (bits b)))
  | "==" => some (ofBool (a = b))
  | "!=" => some (ofBool (a ≠ b))
  | "<" => some (ofBool (a < b))
  | "<=" => some (ofBool (a ≤ b))
  | ">" => some (ofBool (a > b))
  | ">=" => some (ofBool (a ≥ b))
  | "<<" => some (wrap (a * Nat.pow 2 (bits b % 64)))
  | ">>" => some (a >>> (bits b % 64))
  | "+" => some (wrap (a + b))
  | "-" => some (wrap (a - b))
  | "*" => some (wrap (a * b))
  | "/" => if b = 0 then none else some (wrap (a.tdiv b))
  | "%" => if b = 0 then none else some (wrap (a.tmod b))
  | _ => none

/-- The binary operator in a mark that assigns; nothing for a plain
assignment. -/
def assigned? (m : Raw) : Option Raw :=
  if m = "=" then some []
  else if m ∈ (["*=", "/=", "%=", "+=", "-=", "<<=", ">>=", "&=", "^=", "|="] : List Raw) then
    some m.dropLast
  else none

-- ======================================================= evaluation

/-- What is wrong with an expression. -/
inductive Fault where
  /-- The expression does not make sense. -/
  | malformed (reason : Raw)
  /-- The value of a variable is no number. -/
  | notNumber (value : Raw)
  deriving Repr, DecidableEq

/-- What is still to be read, and the variables set so far, the last first. -/
structure Reading where
  ahead : List Lexeme
  assigned : List (Raw × Int)

/-- An expression is evaluated, where `lookup` knows the variables. -/
abbrev Evaluator := ReaderT (Raw → Option Raw) (StateT Reading (Except Fault))

/-- Finds an expression malformed. -/
def malformed {α : Type} (reason : Raw) : Evaluator α := throw (Fault.malformed reason)

/-- The mark that comes next, if one does. -/
def peek : Evaluator Raw := do
  match (← get).ahead with
  | .mark m :: _ => return m
  | _ => return []

/-- Passes over what comes next. -/
def advance : Evaluator Unit := modify fun r => { r with ahead := r.ahead.tail }

/-- The value of a variable. -/
def getVariable? (name : Raw) : Evaluator Int := do
  match (← get).assigned.lookup name with
  | some n => return n
  | none =>
    let text := ((← read) name).getD []
    match ofValue? text with
    | some n => return n
    | none => throw (Fault.notNumber text)

/-- What a binary operator makes of two numbers. -/
def combine (operator : Raw) (a b : Int) : Evaluator Int :=
  match compute? operator a b with
  | some n => return n
  | none => malformed "division by zero"

mutual

/-- An operand. -/
def primary (fuel : Nat) (idle : Bool) : Evaluator Int := do
  match fuel with
  | 0 => malformed "expecting primary"
  | fuel + 1 =>
    let ahead := (← get).ahead
    advance
    match ahead with
    | .number n :: _ => return n
    | .name n :: _ => if idle then return 0 else getVariable? n
    | .mark m :: _ =>
      match String.ofList m with
      | "(" =>
        let n ← assignment fuel idle
        if (← peek) ≠ ")" then malformed "expecting ')'"
        advance
        return n
      | "+" => primary fuel idle
      | "-" => return wrap (-(← primary fuel idle))
      | "!" => return ofBool ((← primary fuel idle) = 0)
      | "~" => return -(← primary fuel idle) - 1
      | _ => malformed "expecting primary"
    | [] => malformed "expecting primary"

/-- An operand with the binary operators after it that bind tighter than a
level. -/
def binaryAfter (fuel : Nat) (idle : Bool) (limit : Nat) (a : Int) : Evaluator Int := do
  match fuel with
  | 0 => return a
  | fuel + 1 =>
    let operator ← peek
    match level? operator with
    | none => return a
    | some level =>
      if level ≥ limit then return a
      advance
      let b ← binaryAfter fuel idle level (← primary fuel idle)
      let c ← if idle then pure b else combine operator a b
      binaryAfter fuel idle limit c

/-- Operands of which all have to be other than zero. -/
def both (fuel : Nat) (idle : Bool) : Evaluator Int := do
  match fuel with
  | 0 => malformed "expecting primary"
  | fuel + 1 =>
    let a ← binaryAfter fuel idle levels.length (← primary fuel idle)
    if (← peek) ≠ "&&" then return a
    advance
    let b ← both fuel (idle || a = 0)
    return ofBool (a ≠ 0 && b ≠ 0)

/-- Operands of which one has to be other than zero. -/
def either (fuel : Nat) (idle : Bool) : Evaluator Int := do
  match fuel with
  | 0 => malformed "expecting primary"
  | fuel + 1 =>
    let a ← both fuel idle
    if (← peek) ≠ "||" then return a
    advance
    let b ← either fuel (idle || a ≠ 0)
    return ofBool (a ≠ 0 || b ≠ 0)

/-- An expression that may choose between two. -/
def choice (fuel : Nat) (idle : Bool) : Evaluator Int := do
  match fuel with
  | 0 => malformed "expecting primary"
  | fuel + 1 =>
    let test ← either fuel idle
    if (← peek) ≠ "?" then return test
    advance
    let yes ← assignment fuel (idle || test = 0)
    if (← peek) ≠ ":" then malformed "expecting ':'"
    advance
    let no ← choice fuel (idle || test ≠ 0)
    return if test ≠ 0 then yes else no

/-- An expression, which may set a variable. -/
def assignment (fuel : Nat) (idle : Bool) : Evaluator Int := do
  match fuel with
  | 0 => malformed "expecting primary"
  | fuel + 1 =>
    match (← get).ahead with
    | .name name :: .mark m :: _ =>
      match assigned? m with
      | none => choice fuel idle
      | some operator =>
        advance
        advance
        let b ← assignment fuel idle
        if idle then return b
        let n ← if operator = [] then pure b else combine operator (← getVariable? name) b
        modify fun r => { r with assigned := (name, n) :: r.assigned }
        return n
    | _ => choice fuel idle

end

/-- The value of an expression, and the variables it sets, the first first. -/
def evaluate (lookup : Raw → Option Raw) (t : Raw) : Except Fault (Int × List (Raw × Int)) := do
  let tokens := lexemes t.length [] t
  let (n, r) ← (assignment (8 * tokens.length + 16) false).run lookup |>.run ⟨tokens, []⟩
  if r.ahead = [] then return (n, r.assigned.reverse) else throw (.malformed "expecting EOF")

end Arithmetic

end SiteScaffold.Shell

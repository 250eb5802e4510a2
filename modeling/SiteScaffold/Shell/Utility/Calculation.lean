/-
The utility that evaluates an expression given as words: numbers of any size,
comparisons, and matches with regular expressions.
-/
import SiteScaffold.Shell.Utility.Expression
import SiteScaffold.Shell.Utility.Options

namespace SiteScaffold.Shell

namespace Utility

namespace Calculation

/-- What is wrong with an expression: it does not make sense, or it cannot be
computed. -/
inductive Fault where
  | malformed (reason : Raw)
  | failed (reason : Raw)

/-- An expression is evaluated word by word. -/
abbrev Reader := StateT (List Raw × Raw) (Except Fault)

/-- The whole number that a word spells. -/
def number? (word : Raw) : Option Int :=
  match word with
  | '-' :: digits =>
    if digits ≠ [] && digits.all Char.isDigit then some (-(Arithmetic.value 10 digits : Int)) else none
  | digits =>
    if digits ≠ [] && digits.all Char.isDigit then some (Arithmetic.value 10 digits) else none

/-- Whether a value counts as nothing. -/
def isNull (word : Raw) : Bool :=
  match word with
  | [] => true
  | '-' :: digits => digits ≠ [] && digits.all (· = '0')
  | digits => digits.all (· = '0')

def ofBool (b : Bool) : Raw := if b then "1" else "0"

/-- The next word, which stays. -/
def peek : Reader (Option Raw) := return (← get).1.head?

/-- Takes the next word, which has to be there. -/
def take : Reader Raw := do
  match ← get with
  | (word :: rest, _) =>
    set (rest, word)
    return word
  | ([], last) => throw (.malformed ("syntax error: missing argument after " ++ quote last))

/-- The number that a value spells. -/
def number (word : Raw) : Reader Int :=
  match number? word with
  | some n => return n
  | none => throw (.failed "non-integer argument")

/-- What a match with a regular expression comes to: the text of its group, or the
number of its characters. -/
def matched (t expression : Raw) : Reader Raw := do
  match Regular.read? ⟨false, false⟩ expression with
  | none => throw (.failed "Invalid regular expression")
  | some (r, groups) =>
    match r.matchAt none t with
    | some found =>
      return if groups > 0 then (found.groups.lookup 1).getD [] else Text.ofNat found.hit.length
    | none => return if groups > 0 then [] else "0"

/-- The binary operators by how loosely they bind, the loosest first. -/
def levels : List (List Raw) :=
  [["|"], ["&"], ["<", "<=", "=", "==", "!=", ">=", ">"], ["+", "-"], ["*", "/", "%"], [":"]]

/-- What a binary operator makes of two values. -/
def combine (operator a b : Raw) : Reader Raw := do
  let compared := fun (holds : Ordering → Bool) =>
    let order : Ordering := match number? a, number? b with
      | some m, some n => compare m n
      | _, _ => if Text.less a b then .lt else if Text.less b a then .gt else .eq
    ofBool (holds order)
  match String.ofList operator with
  | "|" => return if !isNull a then a else if !isNull b then b else "0"
  | "&" => return if isNull a || isNull b then "0" else a
  | "<" => return compared (· = .lt)
  | "<=" => return compared (· ≠ .gt)
  | "=" | "==" => return compared (· = .eq)
  | "!=" => return compared (· ≠ .eq)
  | ">=" => return compared (· ≠ .lt)
  | ">" => return compared (· = .gt)
  | "+" => return Raw.ofInt ((← number a) + (← number b))
  | "-" => return Raw.ofInt ((← number a) - (← number b))
  | "*" => return Raw.ofInt ((← number a) * (← number b))
  | ":" => matched a b
  | mark =>
    let m ← number a
    let n ← number b
    if n = 0 then throw (.failed "division by zero")
    return Raw.ofInt (if mark = "/" then m.tdiv n else m.tmod n)

/-- The value of an operand or of an expression with operators that bind as tightly
as a level. -/
def value (fuel level : Nat) : Reader Raw := do
  match fuel with
  | 0 => throw (.malformed "syntax error")
  | fuel + 1 =>
    match levels[level]? with
    | some operators => more fuel level operators (← value fuel (level + 1))
    | none =>
      let word ← take
      match String.ofList word with
      | "(" =>
        let inner ← value fuel 0
        match ← peek with
        | some [')'] =>
          discard take
          return inner
        | some other =>
          throw (.malformed ("syntax error: expecting ')' instead of " ++ quote other))
        | none =>
          throw (.malformed ("syntax error: expecting ')' after " ++ quote (← get).2))
      | ")" => throw (.malformed "syntax error: unexpected ')'")
      | "+" => take
      | "length" => return Text.ofNat (← value fuel level).length
      | "match" =>
        let t ← value fuel level
        matched t (← value fuel level)
      | "index" =>
        let t ← value fuel level
        let set ← value fuel level
        return Text.ofNat (match t.findIdx? set.contains with
          | some i => i + 1
          | none => 0)
      | "substr" =>
        let t ← value fuel level
        let start := number? (← value fuel level)
        let count := number? (← value fuel level)
        match start, count with
        | some start, some count =>
          if start ≤ 0 || count ≤ 0 then return []
          return (t.drop (start.toNat - 1)).take count.toNat
        | _, _ => return []
      | _ => return word
where
  /-- Goes on with the operators of a level after a value. -/
  more (fuel level : Nat) (operators : List Raw) (a : Raw) : Reader Raw := do
    match fuel with
    | 0 => return a
    | fuel + 1 =>
      match ← peek with
      | some operator =>
        if operator ∉ operators then return a
        discard take
        let b ← value fuel (level + 1)
        more fuel level operators (← combine operator a b)
      | none => return a

/-- The value of the expression that words spell. -/
def evaluate (words : List Raw) : Except Fault Raw := do
  let (found, rest, _) ← (value (20 * words.length + 40) 0).run (words, [])
  match rest with
  | [] => return found
  | word :: _ => throw (.malformed ("syntax error: unexpected argument " ++ quote word))

end Calculation

def expr : Utility := fun program args => do
  let words := if args.head? = some "--" then args.drop 1 else args
  if words.isEmpty then return ← misused program "missing operand" 2
  match Calculation.evaluate words with
  | .ok found =>
    Task.sayLine found
    return if Calculation.isNull found then 1 else 0
  | .error (.malformed reason) | .error (.failed reason) =>
    complain program reason
    return 2

end Utility

end SiteScaffold.Shell

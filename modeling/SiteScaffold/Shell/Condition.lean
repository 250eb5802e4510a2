/-
Conditions of scripts, as `test` and the bracket command decide them. What a word
does depends on the words after it: an operator that nothing follows is an operand.
What the conditions ask of files is a parameter.
-/
import SiteScaffold.Shell.Arithmetic

namespace SiteScaffold.Shell

/-- What conditions ask: whether a file is there and has a property, which a letter
tells; whether a channel leads to a terminal; and what holds between two files. -/
structure Facts where
  file : Char → Raw → Bool
  terminal : Nat → Bool
  files : Raw → Raw → Raw → Bool

namespace Condition

/-- What an operator of conditions does. -/
inductive Role where
  | unary
  | binary
  | and
  | or
  | not
  | opening
  | closing
  deriving DecidableEq

/-- The letters of the operators on one operand. -/
def unaryLetters : Raw := "rwxefdcbpugksLhSOGtzn"

def binaryNames : List Raw :=
  (["=", "!=", "<", ">", "-eq", "-ne", "-ge", "-gt", "-le", "-lt", "-nt", "-ot", "-ef"]
    : List String).map String.toList

/-- What a word does as an operator, if it is one. -/
def operator? (word : Raw) : Option Role :=
  match word with
  | ['!'] => some .not
  | ['('] => some .opening
  | [')'] => some .closing
  | ['-', 'a'] => some .and
  | ['-', 'o'] => some .or
  | ['-', c] => if unaryLetters.contains c then some .unary else none
  | _ => if binaryNames.contains word then some .binary else none

/-- What the first of some words does; an operand does nothing. -/
def role? (words : List Raw) : Option Role :=
  match words with
  | [] => none
  | word :: rest =>
    match operator? word, rest with
    | some .opening, [] => none
    | some .unary, [] => none
    | some .unary, next :: _ :: _ => if operator? next = some .binary then none else some .unary
    | role, _ => role

/-- A condition is read from words; it may be malformed. -/
abbrev Reader := StateT (List Raw) (Except Raw)

/-- The whole number that a word spells. -/
def number (word : Raw) : Except Raw Int :=
  let fault : Except Raw Int := .error ("Illegal number: " ++ word)
  let (sign, digits) : Int × Raw := match word.dropWhile Raw.isBlank with
    | '-' :: rest => (-1, rest)
    | '+' :: rest => (1, rest)
    | rest => (1, rest)
  let spelled := digits.takeWhile Char.isDigit
  let n := sign * Arithmetic.value 10 spelled
  if spelled ≠ [] && (digits.drop spelled.length).all Raw.isBlank && Arithmetic.fits n then .ok n
  else fault

/-- Decides an operator on one operand. -/
def unary (facts : Facts) (operator : Raw) (word : Raw) : Except Raw Bool := do
  match operator.getLast? with
  | some 'z' => return word = []
  | some 'n' => return word ≠ []
  | some 't' => return facts.terminal (← number word).toNat
  | some letter => return facts.file letter word
  | none => return false

/-- Decides an operator on two operands. -/
def binary (facts : Facts) (a operator b : Raw) : Except Raw Bool := do
  let numbers := fun (holds : Int → Int → Bool) => do
    let m ← number a
    return holds m (← number b)
  match String.ofList operator with
  | "=" => return a = b
  | "!=" => return a ≠ b
  | "<" => return Text.less a b
  | ">" => return Text.less b a
  | "-eq" => numbers (· = ·)
  | "-ne" => numbers (· ≠ ·)
  | "-ge" => numbers (· ≥ ·)
  | "-gt" => numbers (· > ·)
  | "-le" => numbers (· ≤ ·)
  | "-lt" => numbers (· < ·)
  | _ => return facts.files operator a b

mutual

/-- Conditions of which one has to hold. -/
def either (facts : Facts) (fuel : Nat) (role : Option Role) : Reader Bool := do
  match fuel with
  | 0 => return false
  | fuel + 1 =>
    let first ← both facts fuel role
    let words ← get
    if role? (words.drop 1) ≠ some .or then return first
    set (words.drop 2)
    let more ← either facts fuel (role? (words.drop 2))
    return first || more

/-- Conditions of which all have to hold. -/
def both (facts : Facts) (fuel : Nat) (role : Option Role) : Reader Bool := do
  match fuel with
  | 0 => return false
  | fuel + 1 =>
    let first ← negated facts fuel role
    let words ← get
    if role? (words.drop 1) ≠ some .and then return first
    set (words.drop 2)
    let more ← both facts fuel (role? (words.drop 2))
    return first && more

/-- A condition that may be negated. -/
def negated (facts : Facts) (fuel : Nat) (role : Option Role) : Reader Bool := do
  match fuel with
  | 0 => return false
  | fuel + 1 =>
    if role ≠ some .not then return ← primary facts fuel role
    match ← get with
    | _ :: next :: rest =>
      set (next :: rest)
      return !(← negated facts fuel (role? (next :: rest)))
    | _ => return true

/-- A condition without operators between conditions. -/
def primary (facts : Facts) (fuel : Nat) (role : Option Role) : Reader Bool := do
  match fuel with
  | 0 => return false
  | fuel + 1 =>
    match role, ← get with
    | _, [] => return false
    | some .opening, _ :: rest =>
      set rest
      if role? rest = some .closing then return false
      let holds ← either facts fuel (role? rest)
      modify (·.drop 1)
      if role? (← get) ≠ some .closing then throw "closing paren expected".toList
      return holds
    | some .unary, operator :: rest =>
      set rest
      match rest with
      | [] => throw (operator ++ ": argument expected")
      | word :: _ => unary facts operator word
    | _, word :: rest =>
      match role? rest, rest with
      | some .binary, operator :: rest =>
        set rest
        match rest with
        | [] => throw (operator ++ ": argument expected")
        | other :: _ => binary facts word operator other
      | _, _ => return word ≠ []

end

/-- Whether the condition that words spell holds, from the role of the first one
on. -/
def decide (facts : Facts) (words : List Raw) (role : Option Role) : Except Raw Bool := do
  let (holds, left) ← (either facts (4 * words.length + 8) role).run words
  match left with
  | word :: _ :: _ => throw (word ++ ": unexpected operator")
  | _ => return holds

/-- Whether the condition that words spell holds, or what is wrong with it. Three
words with an operator between them are taken as they stand, and the outer ones of
up to four words may be parentheses or a negation. -/
def holds (facts : Facts) : List Raw → Except Raw Bool
  | [] => .ok false
  | word :: rest =>
    let usual := decide facts (word :: rest) (role? (word :: rest))
    let compound :=
      if word = "(" && rest.getLast? = some ")" then
        decide facts rest.dropLast (role? rest.dropLast)
      else if word = "!" then (holds facts rest).map not
      else usual
    match rest with
    | [operator, _] =>
      if operator? operator = some .binary then decide facts (word :: rest) none else compound
    | [_, _, _] => compound
    | _ => usual

end Condition

end SiteScaffold.Shell

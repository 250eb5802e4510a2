/-
Utilities that work on the words they are given: parts of paths, numbers in a row,
and expressions.
-/
import SiteScaffold.Shell.Builtin.Values
import SiteScaffold.Shell.Utility.Entries

namespace SiteScaffold.Shell

namespace Utility

/-- A name without an end that it has and does not consist of. -/
def withoutEnd (suffix name : Raw) : Raw :=
  match Text.before? suffix name with
  | some [] | none => name
  | some front => front

def basename : Utility :=
  withLeadingOptions [flag 'a' "multiple", valued 's' "suffix", flag 'z' "zero"] 1 fun program g => do
    let ending : Raw := if g.has 'z' then ['\x00'] else ['\n']
    let tell := fun (name suffix : Raw) => Task.say (withoutEnd suffix (lastPart name) ++ ending)
    if g.has 'a' || g.has 's' then
      if g.operands.isEmpty then return ← misused program "missing operand" 1
      g.operands.forM fun name => tell name ((g.value? 's').getD [])
      return 0
    match g.operands with
    | [] => misused program "missing operand" 1
    | [name] =>
      tell name []
      return 0
    | [name, suffix] =>
      tell name suffix
      return 0
    | _ :: _ :: extra :: _ => misused program ("extra operand " ++ quote extra) 1

/-- The name of the folder that holds what a name leads to. -/
def folderPart (name : Raw) : Raw :=
  let front := (bareName name).reverse.dropWhile (· ≠ '/')
  if name ≠ [] && bareName name = "/" then "/"
  else if front = [] then "."
  else bareName front.reverse

def dirname : Utility :=
  withLeadingOptions [flag 'z' "zero"] 1 fun program g => do
    if g.operands.isEmpty then return ← misused program "missing operand" 1
    g.operands.forM fun name =>
      Task.say (folderPart name ++ (if g.has 'z' then ['\x00'] else ['\n']))
    return 0

-- ========================================================== numbers

/-- A number in decimal: its digits without a point, and how many of them stand
after it. -/
structure Fixed where
  value : Int
  places : Nat

/-- The number that a word spells. -/
def fixed? (word : Raw) : Option Fixed :=
  let (sign, t) : Int × Raw := match word with
    | '-' :: rest => (-1, rest)
    | '+' :: rest => (1, rest)
    | _ => (1, word)
  let whole := t.takeWhile Char.isDigit
  let make := fun (part : Raw) =>
    if whole = [] && part = [] then none
    else some ⟨sign * Arithmetic.value 10 (whole ++ part), part.length⟩
  match t.drop whole.length with
  | [] => make []
  | '.' :: part => if part.all Char.isDigit then make part else none
  | _ => none

/-- The value with so many places. -/
def Fixed.scaled (n : Fixed) (places : Nat) : Int := n.value * Nat.pow 10 (places - n.places)

/-- A number with so many places in decimal. -/
def fixedText (value : Int) (places : Nat) : Raw :=
  let digits := Decimal.padded (places + 1) (Text.ofNat value.natAbs)
  let whole := digits.length - places
  (if value < 0 then ['-'] else []) ++ digits.take whole
    ++ (if places = 0 then [] else '.' :: digits.drop whole)

/-- Numbers from one to another by steps, the last first. -/
def countFrom (fuel : Nat) (done : List Int) (next step last : Int) : List Int :=
  match fuel with
  | 0 => done
  | fuel + 1 =>
    if (step > 0 && next > last) || (step < 0 && next < last) then done
    else countFrom fuel (next :: done) (next + step) step last

def seq : Utility := fun program args => do
  let isNumber := fun (word : Raw) => (fixed? word).isSome
  let words := args.takeWhile fun word => word.head? = some '-' && !isNumber word
  let takesValue := match words.getLast? with
    | some ['-', 's'] | some ['-', 'f'] => true
    | _ => false
  let front := args.take (words.length + if takesValue then 1 else 0)
  match given? [valued 's' "separator", flag 'w' "equal-width", valued 'f' "format"] true front with
  | .error reason => misused program reason 1
  | .ok g =>
    let operands := g.operands ++ args.drop front.length
    let operands := if front.getLast? = some "--" then args.drop front.length else operands
    let values := operands.map fun word => (word, fixed? word)
    match values.find? (·.2.isNone) with
    | some (word, _) =>
      misused program ("invalid floating point argument: " ++ quote word) 1
    | none =>
      let one : Fixed := ⟨1, 0⟩
      let numbers := values.filterMap (·.2)
      let range : Except Raw (Fixed × Fixed × Fixed) := match numbers with
        | [] => .error "missing operand"
        | [last] => .ok (one, one, last)
        | [first, last] => .ok (first, one, last)
        | [first, step, last] => .ok (first, step, last)
        | _ => .error ("extra operand " ++ quote (operands.getD 3 []))
      match range with
      | .error reason => misused program reason 1
      | .ok (first, step, last) =>
        if step.value = 0 then
          return ← misused program ("invalid Zero increment value: " ++ quote (operands.getD 1 [])) 1
        let places := max first.places step.places
        let kept := max places last.places
        let rest := Nat.pow 10 (kept - places)
        let all := (countFrom 10000000 [] (first.scaled kept) (step.scaled kept)
          (last.scaled kept)).reverse
        let shown := all.map fun n => fixedText (n / rest) places
        let width := (shown.map List.length).foldl max 0
        let widened := shown.map fun t =>
          if !g.has 'w' then t
          else match t with
            | '-' :: digits => '-' :: Decimal.padded (width - 1) digits
            | digits => Decimal.padded width digits
        let formatted := match g.value? 'f' with
          | some format => all.map fun n => (Printing.printf .extended format [fixedText n kept]).1
          | none => widened
        if !formatted.isEmpty then
          Task.say (Text.join ((g.value? 's').getD ['\n']) formatted ++ ['\n'])
        return 0

end Utility

end SiteScaffold.Shell

/-
Numbers with a binary point, and how they are written in decimal. A number is a
whole number times a power of two; a decimal that is read is brought to the
nearest number with so many binary digits, and what is written is rounded from the
exact value. In both cases the even neighbour wins a tie.
-/
import SiteScaffold.Shell.Arithmetic

namespace SiteScaffold.Shell

/-- A number with a binary point: `mantissa` times two to the power of
`exponent`; too large to be told; or none at all. -/
inductive Magnitude where
  | finite (mantissa : Nat) (exponent : Int)
  | infinite
  | none
  deriving Repr, DecidableEq

/-- How numbers are kept: the number of binary digits, the least exponent and the
largest one. -/
structure Precision where
  digits : Nat
  least : Int
  largest : Int

namespace Precision

/-- Numbers of 64 bits. -/
def double : Precision := ⟨53, -1074, 971⟩

/-- Numbers of 80 bits. -/
def extended : Precision := ⟨64, -16445, 16320⟩

/-- Whether numbers are kept in more than 64 bits. -/
def isExtended (kept : Precision) : Bool := kept.digits = 64

end Precision

namespace Decimal

/-- A quotient rounded to the nearest whole number, a half to the even one. -/
def roundDiv (a b : Nat) : Nat :=
  let q := a / b
  let r := a % b
  if 2 * r < b then q
  else if 2 * r > b then q + 1
  else if q % 2 = 0 then q else q + 1

/-- A quotient of whole numbers times powers of two, rounded to a whole number. -/
def scaledDiv (a b : Nat) (twos : Int) : Nat :=
  if twos ≥ 0 then roundDiv (a * Nat.pow 2 twos.toNat) b else roundDiv a (b * Nat.pow 2 (-twos).toNat)

/-- The number nearest to a quotient. -/
def nearest (kept : Precision) (a b : Nat) : Magnitude :=
  if a = 0 then .finite 0 0
  else
    let guess : Int := (Nat.log2 a : Int) - Nat.log2 b - kept.digits
    let settle := fun (e : Int) =>
      let e := max e kept.least
      (scaledDiv a b (-e), e)
    let (m, e) := settle guess
    let (m, e) := if m < Nat.pow 2 kept.digits then (m, e) else settle (guess + 1)
    let (m, e) := if m = Nat.pow 2 kept.digits then (Nat.pow 2 (kept.digits - 1), e + 1) else (m, e)
    if e > kept.largest then .infinite else .finite m e

/-- The number a decimal spells: its digits, and the power of ten they are
multiplied by. -/
def ofDigits (kept : Precision) (digits : Raw) (tens : Int) : Magnitude :=
  let digits := digits.dropWhile (· = '0')
  let n := Arithmetic.value 10 digits
  let size := tens + digits.length
  if n = 0 || size < -5000 then .finite 0 0
  else if size > 5000 then .infinite
  else if tens ≥ 0 then nearest kept (n * Nat.pow 10 tens.toNat) 1
  else nearest kept n (Nat.pow 10 (-tens).toNat)

/-- The number that a text starts with, without its sign, and the text after
it. -/
def unsigned? (kept : Precision) (t : Raw) : Option (Magnitude × Raw) :=
  let lower := t.map Char.toLower
  let word := fun (w : Raw) => (Text.after? w lower).map fun _ => t.drop w.length
  match word "infinity", word "inf", word "nan" with
  | some rest, _, _ | none, some rest, _ => some (.infinite, rest)
  | none, none, some rest => some (.none, rest)
  | none, none, none =>
    let scaled := fun (mark : Char) (t : Raw) =>
      match t with
      | c :: rest =>
        if c.toLower ≠ mark then (0, t)
        else
          let (sign, rest') : Int × Raw := match rest with
            | '-' :: rest => (-1, rest)
            | '+' :: rest => (1, rest)
            | _ => (1, rest)
          let digits := rest'.takeWhile Char.isDigit
          if digits = [] then (0, t)
          else (sign * min (Arithmetic.value 10 digits) 100000, rest'.drop digits.length)
      | [] => (0, [])
    let mantissa := fun (ok : Char → Bool) (t : Raw) =>
      let whole := t.takeWhile ok
      match t.drop whole.length with
      | '.' :: rest =>
        let part := rest.takeWhile ok
        if whole = [] && part = [] then none else some (whole, part, rest.drop part.length)
      | rest => if whole = [] then none else some (whole, [], rest)
    let hexadecimal : Option (Magnitude × Raw) :=
      match t with
      | '0' :: x :: rest =>
        if x ≠ 'x' && x ≠ 'X' then none
        else do
          let (whole, part, rest) ← mantissa (fun c => (Arithmetic.digit? 16 c).isSome) rest
          let (power, rest) := scaled 'p' rest
          let n := Arithmetic.value 16 (whole ++ part)
          let twos := power - 4 * part.length
          let found := if twos ≥ 0 then nearest kept (n * Nat.pow 2 (min twos.toNat 20000)) 1
            else nearest kept n (Nat.pow 2 (min (-twos).toNat 20000))
          return (found, rest)
      | _ => none
    match hexadecimal with
    | some found => some found
    | none => do
      let (whole, part, rest) ← mantissa Char.isDigit t
      let (power, rest) := scaled 'e' rest
      return (ofDigits kept (whole ++ part) (power - part.length), rest)

-- ========================================================== writing

/-- A number times a power of ten, rounded to a whole number. -/
def timesTen (m : Nat) (e tens : Int) : Nat :=
  let a := m * Nat.pow 10 tens.toNat
  let b := Nat.pow 10 (-tens).toNat
  scaledDiv a b e

/-- Digits with zeros in front up to a length. -/
def padded (length : Nat) (digits : Raw) : Raw :=
  List.replicate (length - digits.length) '0' ++ digits

/-- Whole part and places of a number, with so many places. -/
def positional (m : Nat) (e : Int) (places : Nat) : Raw × Raw :=
  let digits := padded (places + 1) (Text.ofNat (timesTen m e places))
  let whole := digits.length - places
  (digits.take whole, digits.drop whole)

/-- The power of ten below a number that is not zero, where `guess` is at most a
few too low. -/
def powerBelow (m : Nat) (e guess : Int) : (steps : Nat) → Int
  | 0 => guess
  | steps + 1 =>
    let next := guess + 1
    let reached :=
      if next ≥ 0 then
        if e ≥ 0 then m * Nat.pow 2 e.toNat ≥ Nat.pow 10 next.toNat
        else m ≥ Nat.pow 10 next.toNat * Nat.pow 2 (-e).toNat
      else if e ≥ 0 then true
      else m * Nat.pow 10 (-next).toNat ≥ Nat.pow 2 (-e).toNat
    if reached then powerBelow m e next steps else guess

/-- The digits of a number with so many places after the first, and its power of
ten. -/
def scientific (m : Nat) (e : Int) (places : Nat) : Raw × Int :=
  if m = 0 then (List.replicate (places + 1) '0', 0)
  else
    let log : Int := (Nat.log2 m : Int) + e
    let guess := (log * 30103).fdiv 100000 - 2
    let power := powerBelow m e guess 6
    let digits := Text.ofNat (timesTen m e (places - power))
    if digits.length > places + 1 then (digits.take (places + 1), power + 1) else (digits, power)

/-- An exponent as it is written, with two digits at least. -/
def exponentText (power : Int) : Raw :=
  (if power < 0 then '-' else '+') :: padded 2 (Text.ofNat power.natAbs)

/-- Digits with a point after the first ones, if any are left or it is asked
for. -/
def withPoint (whole places : Raw) (always : Bool) : Raw :=
  whole ++ (if places = [] && !always then [] else '.' :: places)

def withoutEndZeros (places : Raw) : Raw := (places.reverse.dropWhile (· = '0')).reverse

/-- The binary digits of a number in base sixteen, with the power of two. -/
def binary (kept : Precision) (m : Nat) (e : Int) (places : Option Nat) : Nat × Raw × Int :=
  if m = 0 then (0, List.replicate (places.getD 0) '0', 0)
  else
    let shift := kept.digits - 1 - Nat.log2 m
    let m := m * Nat.pow 2 shift
    let power := e - shift + kept.digits - 1
    let size := (kept.digits - 1 + 3) / 4
    let m := m * Nat.pow 2 (4 * size - (kept.digits - 1))
    match places with
    | none =>
      let digits := padded size (Nat.toDigits 16 (m % Nat.pow 16 size))
      (m / Nat.pow 16 size, withoutEndZeros digits, power)
    | some places =>
      let m := if places < size then roundDiv m (Nat.pow 16 (size - places))
        else m * Nat.pow 16 (places - size)
      let lead := m / Nat.pow 16 places
      let digits := if places = 0 then [] else padded places (Nat.toDigits 16 (m % Nat.pow 16 places))
      (lead, digits, power)

/-- A number without its sign in the manner of a letter, with so many places;
`full` keeps the point and the zeros at the end. -/
def render (kept : Precision) (letter : Char) (places : Option Nat) (full : Bool) :
    Magnitude → Raw
  | .infinite => "inf"
  | .none => "nan"
  | .finite m e =>
    match letter with
    | 'f' =>
      let (whole, part) := positional m e (places.getD 6)
      withPoint whole part full
    | 'e' =>
      let (digits, power) := scientific m e (places.getD 6)
      withPoint (digits.take 1) (digits.drop 1) full ++ 'e' :: exponentText power
    | 'a' =>
      let (lead, digits, power) := binary kept m e places
      "0x" ++ withPoint (Text.ofNat lead) digits full ++ 'p'
        :: (if power < 0 then '-' else '+') :: Text.ofNat power.natAbs
    | _ =>
      let significant := max 1 (places.getD 6)
      let (digits, power) := scientific m e (significant - 1)
      let trim := fun (r : Raw) => if full then r else withoutEndZeros r
      if -4 ≤ power && power < significant then
        let (whole, part) := positional m e (significant - 1 - power).toNat
        withPoint whole (trim part) full
      else withPoint (digits.take 1) (trim (digits.drop 1)) full ++ 'e' :: exponentText power

end Decimal

end SiteScaffold.Shell

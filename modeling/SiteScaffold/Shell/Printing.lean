/-
What `echo` and `printf` write. Both take escapes for characters that are hard to
type; `printf` lays out its arguments as a format asks, and goes over the format
again while arguments are left.
-/
import SiteScaffold.Shell.Decimal

namespace SiteScaffold.Shell

namespace Printing

-- ========================================================== escapes

/-- The character that a one-letter escape stands for. -/
def escaped? (c : Char) : Option Char :=
  [('a', '\x07'), ('b', '\x08'), ('e', '\x1b'), ('f', '\x0c'), ('n', '\n'), ('r', '\r'),
    ('t', '\t'), ('v', '\x0b'), ('\\', '\\')].lookup c

def isOctal (c : Char) : Bool := '0' ≤ c && c ≤ '7'

/-- The byte that octal digits spell out. -/
def octal (digits : Raw) : Char := Char.ofNat (Arithmetic.value 8 digits % 256)

/-- The byte that hexadecimal digits after a letter spell, and how many characters
that takes, if there are digits. -/
def hexEscape? (t : Raw) : Option (Char × Nat) :=
  match t with
  | 'x' :: rest =>
    let digits := (rest.take 2).takeWhile fun c => (Arithmetic.digit? 16 c).isSome
    if digits = [] then none
    else some (Char.ofNat (Arithmetic.value 16 digits), digits.length + 1)
  | _ => none

/-- The character that an escape stands for and the number of characters it takes,
where the text follows the backslash. A backslash before anything else stands for
itself. `extended` tells that there are hexadecimal escapes, too. -/
def escape (extended : Bool) (t : Raw) : Char × Nat :=
  match t with
  | [] => ('\\', 0)
  | c :: _ =>
    match escaped? c, hexEscape? t with
    | some d, _ => (d, 1)
    | none, hex =>
      let digits := (t.take 3).takeWhile isOctal
      match extended, hex with
      | true, some found => found
      | _, _ => if digits = [] then ('\\', 0) else (octal digits, digits.length)

/-- A text with its escapes filled in after what was written, the last character
first, while `skip` characters of an escape are still to be passed over. An octal
escape may have a zero in front; one escape ends all output. -/
def escapesFrom (extended : Bool) (done : Raw) (skip : Nat) : Raw → Raw × Bool
  | [] => (done.reverse, false)
  | c :: rest =>
    match skip with
    | skip + 1 => escapesFrom extended done skip rest
    | 0 =>
      if c ≠ '\\' then escapesFrom extended (c :: done) 0 rest
      else
        match rest with
        | 'c' :: _ => (done.reverse, true)
        | '0' :: d :: more =>
          if isOctal d then
            let (e, taken) := escape extended (d :: more)
            escapesFrom extended (e :: done) (taken + 1) rest
          else escapesFrom extended ('\x00' :: done) 1 rest
        | _ =>
          let (e, taken) := escape extended rest
          escapesFrom extended (e :: done) taken rest

/-- A text with its escapes filled in, and whether one of them ended the
output. -/
def escapes (extended : Bool) (t : Raw) : Raw × Bool := escapesFrom extended [] 0 t

/-- What `echo` writes. -/
def echo (words : List Raw) : Raw :=
  let (newline, words) : Raw × List Raw := match words with
    | ['-', 'n'] :: words => ([], words)
    | _ => (['\n'], words)
  let (out, ended) := escapes false (Text.join " " words)
  if ended then out else out ++ newline

-- ========================================================== layouts

/-- How a value is laid out: at which side it is filled up and with what, what
stands before a number, whether it is written in full, to which width, and how
much of it is shown. -/
structure Layout where
  left : Bool
  zeros : Bool
  plus : Bool
  blank : Bool
  full : Bool
  width : Nat
  places : Option Nat

namespace Layout

/-- A text filled up to the width. -/
def fill (layout : Layout) (t : Raw) : Raw :=
  let missing := List.replicate (layout.width - t.length) ' '
  if layout.left then t ++ missing else missing ++ t

/-- A number filled up to the width, with its sign or mark in front. -/
def fillNumber (layout : Layout) (zeros : Bool) (front digits : Raw) : Raw :=
  if zeros && layout.zeros && !layout.left then
    front ++ Decimal.padded (layout.width - front.length) digits
  else layout.fill (front ++ digits)

/-- The sign of a number. -/
def sign (layout : Layout) (negative : Bool) : Raw :=
  if negative then ['-'] else if layout.plus then ['+'] else if layout.blank then [' '] else []

/-- The digits of a whole number, as many as are asked for. -/
def digits (layout : Layout) (base n : Nat) : Raw :=
  if n = 0 && layout.places = some 0 then []
  else Decimal.padded (layout.places.getD 1) (Nat.toDigits base n)

/-- A whole number with a sign. -/
def signed (layout : Layout) (n : Int) : Raw :=
  layout.fillNumber layout.places.isNone (layout.sign (n < 0)) (layout.digits 10 n.natAbs)

/-- A whole number without a sign, in the manner of a letter. -/
def unsigned (layout : Layout) (letter : Char) (n : Nat) : Raw :=
  let base := if letter = 'o' then 8 else if letter = 'u' then 10 else 16
  let digits := layout.digits base n
  let digits :=
    if letter = 'o' && layout.full && digits.head? ≠ some '0' then '0' :: digits else digits
  let front : Raw := if base = 16 && layout.full && n ≠ 0 then ['0', 'x'] else []
  let raise := fun (r : Raw) => if letter = 'X' then r.map Char.toUpper else r
  layout.fillNumber layout.places.isNone (raise front) (raise digits)

/-- A number with a binary point, in the manner of a letter. -/
def pointed (kept : Precision) (layout : Layout) (letter : Char) (negative : Bool)
    (m : Magnitude) : Raw :=
  let digits := Decimal.render kept letter.toLower layout.places layout.full m
  let digits := if letter.isUpper then digits.map Char.toUpper else digits
  let front := layout.sign negative
  let (front, digits) := match digits with
    | '0' :: x :: rest => if x.toLower = 'x' then (front ++ ['0', x], rest) else (front, digits)
    | _ => (front, digits)
  let isFinite := match m with
    | .finite _ _ => true
    | _ => false
  layout.fillNumber isFinite front digits

end Layout

-- ========================================================== numbers

/-- What is wrong with an argument that should be a number: it spells none, or only at
its start, or one that is too large; or it stands for a character that is not there,
or is followed by others. -/
inductive Complaint where
  | notNumeric (argument : Raw)
  | noCharacter (argument : Raw)
  | incomplete (argument : Raw)
  | tooLarge (argument : Raw)
  | ignored (rest : Raw)
  deriving Repr, DecidableEq

/-- The wording of a complaint of the shell; there is none for what does no harm. -/
def Complaint.message? : Complaint → Option Raw
  | notNumeric argument => some (argument ++ ": expected numeric value")
  | incomplete argument => some (argument ++ ": not completely converted")
  | tooLarge argument => some (argument ++ ": Numerical result out of range")
  | noCharacter _ | ignored _ => none

/-- A number that was read from an argument, and what was wrong with the
argument. -/
structure Reading (α : Type) where
  value : α
  complaint : Option Complaint

/-- What is wrong with an argument of which a rest was not read. -/
def conversionFault (whole rest : Raw) (tooLarge : Bool) : Option Complaint :=
  if rest ≠ [] then some (if rest = whole then .notNumeric whole else .incomplete whole)
  else if tooLarge then some (.tooLarge whole)
  else none

/-- The byte after a quotation mark that an argument starts with, and what is wrong
with the argument. -/
def quotedByte? (t : Raw) : Option (Reading Nat) :=
  match t with
  | '\'' :: rest | '"' :: rest =>
    some ⟨(rest.head?.getD '\x00').toNat, match rest with
      | [] => some (.noCharacter t)
      | [_] => none
      | _ :: more => some (.ignored more)⟩
  | _ => none

/-- The whole number that an argument spells. -/
def wholeNumber (signed : Bool) (t : Raw) : Reading Int :=
  match quotedByte? t with
  | some ⟨n, complaint⟩ => ⟨n, complaint⟩
  | none =>
    match Arithmetic.signed? t with
    | none => ⟨0, conversionFault t t false⟩
    | some (n, rest) =>
      if signed then
        ⟨Arithmetic.clamp n, conversionFault t rest (!Arithmetic.fits n)⟩
      else
        let tooLarge := n.natAbs ≥ Nat.pow 2 64
        ⟨if tooLarge then Nat.pow 2 64 - 1 else n % Nat.pow 2 64, conversionFault t rest tooLarge⟩

/-- The number with a binary point that an argument spells, after its sign. -/
def pointedNumber (kept : Precision) (t : Raw) : Reading (Bool × Magnitude) :=
  match quotedByte? t with
  | some ⟨n, complaint⟩ => ⟨(false, .finite n 0), complaint⟩
  | none =>
    let (negative, digits) : Bool × Raw := match t.dropWhile Raw.isBlank with
      | '-' :: rest => (true, rest)
      | '+' :: rest => (false, rest)
      | rest => (false, rest)
    match Decimal.unsigned? kept digits with
    | none => ⟨(false, .finite 0 0), conversionFault t t false⟩
    | some (m, rest) =>
      let tooLarge := m = .infinite && digits.head?.any fun c => c.isDigit || c = '.'
      ⟨(negative, m), conversionFault t rest tooLarge⟩

-- =========================================================== printf

/-- How far `printf` has come: the arguments left, what was written and what was
complained of, the last first. -/
structure Printer where
  args : List Raw
  out : List Raw
  complaints : List Complaint

/-- Why `printf` stops: an escape ended the output; the format has an unknown
conversion, or one without a letter; or a value would be laid out too wide. -/
inductive Halt where
  | ended
  | unknown (conversion : Raw)
  | cut (conversion : Raw)
  | tooWide
  deriving Repr, DecidableEq

/-- A step of `printf`. -/
abbrev Print := ExceptT Halt (StateM Printer)

namespace Print

def emit (t : Raw) : Print Unit := modify fun p => { p with out := t :: p.out }

/-- The next argument; none once all are used up. -/
def argument? : Print (Option Raw) := do
  let p ← get
  set { p with args := p.args.tail }
  return p.args.head?

/-- Takes a value that was read, and notes what was wrong with it. -/
def take {α : Type} (reading : Reading α) : Print α := do
  match reading.complaint with
  | some c => modify fun p => { p with complaints := c :: p.complaints }
  | none => pure ()
  return reading.value

/-- The next argument as a whole number. -/
def whole (signed : Bool) : Print Int := do
  match ← argument? with
  | none => return 0
  | some t => take (wholeNumber signed t)

/-- Writes the next argument as a conversion asks. -/
def convert (kept : Precision) (layout : Layout) (kind : Char) (spelled : Raw) : Print Unit := do
  match kind with
  | 's' =>
    let t := (← argument?).getD []
    emit (layout.fill (match layout.places with
      | some n => t.take n
      | none => t))
  | 'b' =>
    let (t, ended) := escapes kept.isExtended ((← argument?).getD [])
    emit (layout.fill (match layout.places with
      | some n => t.take n
      | none => t))
    if ended then throw .ended
  | 'c' =>
    match ← argument? with
    | some (c :: _) => emit (layout.fill [c])
    | _ => emit (layout.fill ['\x00'])
  | 'd' | 'i' => emit (layout.signed (← whole true))
  | 'o' | 'u' | 'x' | 'X' => emit (layout.unsigned kind (← whole false).toNat)
  | 'e' | 'E' | 'f' | 'F' | 'g' | 'G' | 'a' | 'A' =>
    let (negative, m) ← match ← argument? with
      | none => pure (false, .finite 0 0)
      | some t => take (pointedNumber kept t)
    emit (layout.pointed kept kind negative m)
  | _ => throw (.unknown spelled)

/-- The width or precision at the front of a format, and the format after it; an
asterisk takes it from an argument, of which the low bits count. -/
def amount (format : Raw) : Print (Int × Raw) := do
  match format with
  | '*' :: rest => return ((← whole true).bmod (Nat.pow 2 32), rest)
  | _ =>
    let digits := format.takeWhile Char.isDigit
    return (Arithmetic.value 10 digits, format.drop digits.length)

/-- Writes what a conversion asks for, where the format follows the percent sign;
answers the format after it. -/
def conversion (kept : Precision) (format : Raw) : Print Raw := do
  let flags := format.takeWhile (· ∈ ['-', '0', '+', ' ', '#'])
  let (width, rest) ← amount (format.drop flags.length)
  let (places, rest) ← match rest with
    | '.' :: rest => do
      let (n, rest) ← amount rest
      pure (if n < 0 then none else some n.toNat, rest)
    | _ => pure (none, rest)
  match rest with
  | [] => throw (.cut ('%' :: format))
  | kind :: after =>
    let spelled := '%' :: format.take (format.length - after.length)
    if max width.natAbs (places.getD 0) ≥ Nat.pow 2 31 then throw .tooWide
    convert kept ⟨flags.contains '-' || width < 0, flags.contains '0', flags.contains '+',
      flags.contains ' ', flags.contains '#', width.natAbs, places⟩ kind spelled
    return after

/-- One pass over the format, of which at most `fuel` steps are taken. -/
def pass (kept : Precision) (fuel : Nat) (format : Raw) : Print Unit := do
  match fuel, format with
  | 0, _ | _, [] => return
  | fuel + 1, '%' :: '%' :: rest =>
    emit ['%']
    pass kept fuel rest
  | fuel + 1, '%' :: rest =>
    let after ← conversion kept rest
    pass kept fuel after
  | fuel + 1, '\\' :: rest =>
    if kept.isExtended && rest.head? = some 'c' then throw .ended
    let (c, taken) :=
      if kept.isExtended && rest.head? = some '"' then ('"', 1) else escape kept.isExtended rest
    emit [c]
    pass kept fuel (rest.drop taken)
  | fuel + 1, _ =>
    let plain := format.takeWhile fun c => c ≠ '%' && c ≠ '\\'
    emit plain
    pass kept fuel (format.drop plain.length)

/-- Passes over the format until no arguments are left, or none is taken. -/
def passes (kept : Precision) (fuel : Nat) (format : Raw) : Print Unit := do
  match fuel with
  | 0 => return
  | fuel + 1 =>
    let before := (← get).args.length
    pass kept (format.length + 1) format
    let left := (← get).args.length
    if left ≠ 0 && left ≠ before then passes kept fuel format

end Print

/-- What `printf` writes and complains of, why it stopped early, if it did, and the
arguments that it did not take. -/
def printf (kept : Precision) (format : Raw) (args : List Raw) :
    Raw × List Complaint × Option Halt × List Raw :=
  let (result, p) := (Print.passes kept (args.length + 1) format).run ⟨args, [], []⟩
  let halt := match result with
    | .ok () => none
    | .error halt => some halt
  (p.out.reverse.flatten, p.complaints.reverse, halt, p.args)

end Printing

end SiteScaffold.Shell

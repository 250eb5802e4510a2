/-
Texts are lists of characters. Everything the program reads, prints or writes
into a file is one, so that recursion on the data is the only recursion there
is; `String` is met at the edges alone, where a literal is coerced.

The module holds the general operations: cutting a text into lines or pieces,
trimming, searching for a literal text and replacing it.
-/
namespace SiteScaffold

/-- A text: a sequence of Unicode scalar values. -/
abbrev Text := List Char

instance : Coe String Text := ⟨String.toList⟩

/-- Texts are equal if the comparison of their characters says so. -/
instance : LawfulBEq Text := inferInstance

/-- What is said of every character of a text is decided by going through the text, and
not through all characters there are. -/
instance {p : Char → Prop} [DecidablePred p] (t : Text) : Decidable (∀ c ∈ t, p c) :=
  List.decidableBAll p t

/-- A sequence of bytes, as a file or a running tool delivers it. -/
abbrev Bytes := List UInt8

namespace Text

-- ==================================================== white space

/-- The characters Unicode calls white space. -/
def isBlank (c : Char) : Bool :=
  c = ' ' || ('\t' ≤ c && c ≤ '\r') || c = '\u0085' || c = '\u00a0' || c = '\u1680'
    || ('\u2000' ≤ c && c ≤ '\u200a') || c = '\u2028' || c = '\u2029'
    || c = '\u202f' || c = '\u205f' || c = '\u3000'

/-- The text without the white space it starts with. -/
def trimStart (t : Text) : Text := t.dropWhile isBlank

/-- The text without the white space it ends with. -/
def trimEnd (t : Text) : Text := (t.reverse.dropWhile isBlank).reverse

/-- The text without the white space around it. -/
def trim (t : Text) : Text := trimStart (trimEnd t)

-- ====================================================== cutting up

/-- The texts with a character put in front of the first one. -/
def consFirst (c : Char) : List Text → List Text
  | [] => [[c]]
  | piece :: pieces => (c :: piece) :: pieces

/-- The pieces between the occurrences of `sep`; there is always at least
one. -/
def split (sep : Char) (t : Text) : List Text :=
  t.foldr (fun c pieces => if c = sep then [] :: pieces else consFirst c pieces) [[]]

/-- The lines of a text, each with the newline that ends it. Only the last
line may lack one, and it is never empty. -/
def wholeLines (t : Text) : List Text :=
  t.foldr (fun c lines => if c = '\n' then [c] :: lines else consFirst c lines) []

/-- A line without the newline, or carriage return and newline, that ends
it. -/
def chomp (line : Text) : Text :=
  match line.reverse with
  | '\n' :: '\r' :: back => back.reverse
  | '\n' :: back => back.reverse
  | _ => line

/-- The lines of a text without their line ends. -/
def lines (t : Text) : List Text := (wholeLines t).map chomp

/-- The texts one after another, with `sep` between neighbours. -/
def join (sep : Text) (ts : List Text) : Text := sep.intercalate ts

/-- The texts one after another, each followed by a newline. -/
def unlines (ts : List Text) : Text := ts.flatMap (· ++ ['\n'])

-- ============================================= literal occurrences

/-- What follows `head` in a text that starts with it. -/
def after? : (head : Text) → Text → Option Text
  | [], t => some t
  | _ :: _, [] => none
  | h :: hs, c :: cs => if h = c then after? hs cs else none

/-- What precedes `tail` in a text that ends with it. -/
def before? (tail t : Text) : Option Text :=
  (after? tail.reverse t.reverse).map List.reverse

/-- Whether `t` ends with `tail`. -/
def endsWith (t tail : Text) : Bool := (before? tail t).isSome

/-- What stands before and after the first occurrence of `needle` from a place
on, where `back` is what stands before the place, last character first. -/
def cutFrom (needle : Text) (back : Text) : Text → Option (Text × Text)
  | [] => if needle = [] then some (back.reverse, []) else none
  | c :: rest =>
    match after? needle (c :: rest) with
    | some tail => some (back.reverse, tail)
    | none => cutFrom needle (c :: back) rest

/-- What stands before and after the first occurrence of `needle`. -/
def cut? (needle t : Text) : Option (Text × Text) := cutFrom needle [] t

/-- Whether `needle` occurs in the text. -/
def contains (t needle : Text) : Bool := (cut? needle t).isSome

/-- The text with the first occurrence of `old` replaced. -/
def replaceFirst (old new : Text) (t : Text) : Text :=
  match cut? old t with
  | some (front, rest) => front ++ new ++ rest
  | none => t

/-- Replacing from a place on, while `skip` characters of an occurrence remain
to be passed over; `back` is what was written before the place, last character
first. -/
def replaceFrom (old new : Text) (skip : Nat) (back : Text) : Text → Text
  | [] => back.reverse
  | c :: rest =>
    match skip with
    | skip + 1 => replaceFrom old new skip back rest
    | 0 =>
      if (after? old (c :: rest)).isSome then
        replaceFrom old new (old.length - 1) (new.reverse ++ back) rest
      else replaceFrom old new 0 (c :: back) rest

/-- The text with every occurrence of the non-empty `old` replaced, read from
the left without overlaps. -/
def replace (old new : Text) (t : Text) : Text := replaceFrom old new 0 [] t

-- ========================================================== order

/-- Code point order. On names it is also the order of their UTF-8 bytes. -/
def less : Text → Text → Bool
  | _, [] => false
  | [], _ :: _ => true
  | a :: as, b :: bs => a < b || (a = b && less as bs)

/-- The number of bytes a text takes in UTF-8. -/
def byteSize (t : Text) : Nat := t.foldl (fun n c => n + c.utf8Size) 0

end Text

end SiteScaffold

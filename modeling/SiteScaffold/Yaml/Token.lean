/-
Tokens of YAML: the marks and scalars of a text, and the starts and ends of
block collections, which are read off the indentation.

A key needs no mark in front of it. That a scalar was a key shows only at the
colon after it, so every token that may be a key is noted, and the key mark is
put in front of it when its colon is met. It has to be on the same line, and
near enough.
-/
import SiteScaffold.Yaml.Scalar
import SiteScaffold.Text.Digit

namespace SiteScaffold.Yaml

/-- A token. -/
inductive Token where
  | version (major minor : Nat)
  | tagHandle (handle : Text)
  | documentStart
  | documentEnd
  | blockSequence
  | blockMapping
  | blockEnd
  | flowSequence
  | flowSequenceEnd
  | flowMapping
  | flowMappingEnd
  | entry
  | flowEntry
  | key
  | value
  | alias (name : Text)
  | anchor (name : Text)
  | tag (handle : Text)
  | scalar (text : Text) (isPlain : Bool)
  deriving Repr, DecidableEq

namespace Token

-- ============================================================ state

/-- A place in the text, with its line, its column, and the number of
characters before it. -/
structure Place where
  rest : Text
  line : Nat
  column : Nat
  index : Nat

/-- The place after `count` more characters. -/
def Place.skip (place : Place) (count : Nat) : Place :=
  (place.rest.take count).foldl (fun p c =>
    if isBreak c then ⟨p.rest.drop 1, p.line + 1, 0, p.index + 1⟩
    else ⟨p.rest.drop 1, p.line, p.column + 1, p.index + 1⟩) place

/-- The place where a later part of the text starts. -/
def Place.goTo (place : Place) (rest : Text) : Place :=
  place.skip (place.rest.length - rest.length)

/-- A token that may turn out to be a key: its number among the tokens, its
place, and whether it has to be one. -/
structure Candidate where
  number : Nat
  line : Nat
  column : Nat
  index : Nat
  required : Bool

/-- What the scanner keeps: its place, the tokens so far, the indentation of
the block collections it is in, the innermost first, whether a key may start
here, and the candidate for a key at each depth of flow collections. -/
structure Scan where
  place : Place
  tokens : List Token
  indents : List Nat
  keyAllowed : Bool
  candidates : List (Option Candidate)

namespace Scan

/-- The indentation of the innermost block collection; -1 outside all. -/
def indent (s : Scan) : Int :=
  match s.indents with
  | [] => -1
  | n :: _ => n

/-- Whether the place is in a flow collection. -/
def inFlow (s : Scan) : Bool := s.candidates.length > 1

def emit (s : Scan) (token : Token) : Scan := { s with tokens := s.tokens ++ [token] }

def skip (s : Scan) (count : Nat) : Scan := { s with place := s.place.skip count }

def goTo (s : Scan) (rest : Text) : Scan := { s with place := s.place.goTo rest }

def allow (s : Scan) (keyAllowed : Bool) : Scan := { s with keyAllowed }

/-- A candidate that is given up; it must not have been required. -/
def giveUp? : Option Candidate → Option (Option Candidate)
  | some candidate => if candidate.required then none else some none
  | none => some none

/-- Gives up the candidate at this depth. -/
def dropCandidate (s : Scan) : Option Scan :=
  match s.candidates with
  | [] => some s
  | top :: below => (giveUp? top).map fun top => { s with candidates := top :: below }

/-- Gives up the candidates that are too far away. -/
def dropStale (s : Scan) : Option Scan := do
  let candidates ← s.candidates.mapM fun candidate =>
    match candidate with
    | some c =>
      if c.line < s.place.line || c.index + 1024 < s.place.index then giveUp? candidate
      else some candidate
    | none => some none
  return { s with candidates }

/-- Notes that the next token may be a key, if keys are allowed here. -/
def noteCandidate (s : Scan) : Option Scan :=
  if s.keyAllowed then do
    let required := !s.inFlow && s.indent = s.place.column
    let s ← s.dropCandidate
    let candidate : Candidate :=
      ⟨s.tokens.length, s.place.line, s.place.column, s.place.index, required⟩
    return { s with candidates := some candidate :: s.candidates.tail }
  else return s

/-- Opens a block collection at a column deeper than the current one, in front
of the token with the given number. -/
def openBlock (s : Scan) (column number : Nat) (token : Token) : Scan :=
  if s.inFlow || column ≤ s.indent then s
  else { s with indents := column :: s.indents, tokens := s.tokens.insertIdx number token }

/-- Closes the block collections that are deeper than a column. -/
def closeBlocks (s : Scan) (column : Int) : Scan :=
  if s.inFlow then s
  else
    let deeper := s.indents.takeWhile fun (n : Nat) => column < Int.ofNat n
    { s with
      indents := s.indents.drop deeper.length
      tokens := s.tokens ++ deeper.map fun _ => .blockEnd }

end Scan

-- ===================================================== white space

/-- Passes over white space and comments. A byte order mark is passed over at
the start of a line, where it takes a column. Tabs are white space where no key
may start; after a line break one may, outside flow collections. At most `fuel`
lines are passed over. -/
def Scan.skipSpace (fuel : Nat) (s : Scan) : Scan :=
  match fuel with
  | 0 => s
  | fuel + 1 =>
    let marked := s.place.column = 0 && s.place.rest.head? = some '\ufeff'
    let s := if marked then s.skip 1 else s
    let tabs := s.inFlow || !s.keyAllowed
    let t := s.place.rest.dropWhile fun c => c = ' ' || (tabs && c = '\t')
    let t := if t.head? = some '#' then t.dropWhile (!isBreak ·) else t
    let s := s.goTo t
    match t with
    | c :: _ =>
      if isBreak c then skipSpace fuel ((s.skip 1).allow (s.keyAllowed || !s.inFlow))
      else s
    | [] => s

-- ====================================================== single tokens

/-- A character of names. -/
def isNameChar (c : Char) : Bool := c.isAlphanum || c = '_' || c = '-'

/-- A character of addresses in tags; some are allowed only between angle
brackets and in directives. -/
def isUriChar (anywhere : Bool) (c : Char) : Bool :=
  isNameChar c || c ∈ ";/?:@&=+$.!~*'()".toList || (anywhere && c ∈ [',', '[', ']'])

/-- The number of bytes in a character whose first byte is given. -/
def sizeFrom? (lead : Nat) : Option Nat :=
  if lead < 0x80 then some 1
  else if lead / 0x20 = 6 then some 2
  else if lead / 0x10 = 14 then some 3
  else if lead / 0x08 = 30 then some 4
  else none

/-- Passes over an address in a tag. An escape is a byte in hexadecimal, and
the bytes of a character outside ASCII are all escaped; `pending` of them are
still to come. -/
def afterUri? (anywhere : Bool) (pending : Nat) : Text → Option Text
  | '%' :: a :: b :: rest => do
    let byte ← hexValue? [a, b]
    match pending with
    | 0 => afterUri? anywhere ((← sizeFrom? byte) - 1) rest
    | pending + 1 => if byte / 0x40 = 2 then afterUri? anywhere pending rest else none
  | c :: rest =>
    if pending ≠ 0 || c = '%' then none
    else if isUriChar anywhere c then afterUri? anywhere 0 rest
    else some (c :: rest)
  | [] => if pending = 0 then some [] else none

/-- The handle of a tag, between exclamation marks or after a single one, and
the text after it. -/
def handle? (t : Text) : Option (Text × Text) :=
  match t with
  | '!' :: rest =>
    let name := rest.takeWhile isNameChar
    match rest.dropWhile isNameChar with
    | '!' :: rest => some ('!' :: name ++ ['!'], rest)
    | rest => some ('!' :: name, rest)
  | _ => none

/-- The handle that a tag uses and the text after the tag. A tag without a
handle of its own uses the primary one, and a lone exclamation mark uses
none. -/
def tag? (t : Text) : Option (Text × Text) :=
  match t with
  | '!' :: '<' :: rest => do
    match ← afterUri? true 0 rest with
    | '>' :: after => if after.length + 1 = rest.length then none else some ([], after)
    | _ => none
  | _ => do
    let (handle, rest) ← handle? t
    if handle.length > 1 && handle.getLast? = some '!' then
      let after ← afterUri? false 0 rest
      if after.length = rest.length then none else some (handle, after)
    else
      let after ← afterUri? false 0 rest
      some (if handle = "!" && after.length = rest.length then [] else ['!'], after)

/-- A number of a version, and the text after it. -/
def number? (t : Text) : Option (Nat × Text) := do
  let digits := t.takeWhile Char.isDigit
  if digits.length > 9 then none
  let n ← Text.decimal? 999999999 digits
  return (n, t.drop digits.length)

/-- A directive after its mark, and the text after it. -/
def directive? (t : Text) : Option (Token × Text) := do
  let name := t.takeWhile isNameChar
  let t := t.drop name.length
  if name = [] || !atSpaceOrEnd t then none
  let t := t.dropWhile isSpace
  if name = "YAML" then
    let (major, t) ← number? t
    match t with
    | '.' :: t =>
      let (minor, t) ← number? t
      return (.version major minor, t)
    | _ => none
  else if name = "TAG" then
    let (handle, t) ← handle? t
    if handle ≠ "!" && handle.getLast? ≠ some '!' then none
    if !t.head?.any isSpace then none
    let t := t.dropWhile isSpace
    let after ← afterUri? true 0 t
    if after.length = t.length || !atSpaceOrEnd after then none
    return (.tagHandle handle, after)
  else none

/-- What may follow the name of an anchor or alias. -/
def mayFollowName (t : Text) : Bool :=
  atSpaceOrEnd t || t.head?.any (· ∈ ['?', ':', ',', ']', '}', '%', '@', '`'])

-- =========================================================== scanning

namespace Scan

/-- A mark that starts a line and ends all block collections. -/
def documentToken (s : Scan) (token : Token) : Option Scan := do
  let s ← (s.closeBlocks (-1)).dropCandidate
  return ((s.allow false).skip 3).emit token

/-- The start of a flow collection. -/
def flowStart (s : Scan) (token : Token) : Option Scan := do
  let s ← s.noteCandidate
  let s := { s with candidates := none :: s.candidates }
  return ((s.allow true).skip 1).emit token

/-- The end of a flow collection. -/
def flowEnd (s : Scan) (token : Token) : Option Scan := do
  let s ← s.dropCandidate
  let s := if s.inFlow then { s with candidates := s.candidates.tail } else s
  return ((s.allow false).skip 1).emit token

/-- A mark that separates entries of a flow collection. -/
def flowSeparator (s : Scan) : Option Scan := do
  let s ← s.dropCandidate
  return ((s.allow true).skip 1).emit .flowEntry

/-- A mark that starts an entry of a block sequence. -/
def blockEntry (s : Scan) : Option Scan := do
  if !s.inFlow && !s.keyAllowed then none
  let s := s.openBlock s.place.column s.tokens.length .blockSequence
  let s ← s.dropCandidate
  return ((s.allow true).skip 1).emit .entry

/-- A mark that starts a key. -/
def keyMark (s : Scan) : Option Scan := do
  if !s.inFlow && !s.keyAllowed then none
  let s := s.openBlock s.place.column s.tokens.length .blockMapping
  let s ← s.dropCandidate
  return ((s.allow !s.inFlow).skip 1).emit .key

/-- A mark that starts a value. The candidate before it, if there is one, is
its key. -/
def valueMark (s : Scan) : Option Scan := do
  match s.candidates with
  | some found :: below =>
    let tokens := s.tokens.insertIdx found.number .key
    let s := { s with tokens, candidates := none :: below }
    let s := s.openBlock found.column found.number .blockMapping
    return ((s.allow false).skip 1).emit .value
  | _ =>
    if !s.inFlow && !s.keyAllowed then none
    let s := s.openBlock s.place.column s.tokens.length .blockMapping
    return ((s.allow !s.inFlow).skip 1).emit .value

/-- An anchor or alias. -/
def reference (s : Scan) (token : Text → Token) : Option Scan := do
  let s := (← s.noteCandidate).allow false
  let t := s.place.rest.drop 1
  let name := t.takeWhile isNameChar
  if name = [] || !mayFollowName (t.drop name.length) then none
  return (s.skip (1 + name.length)).emit (token name)

/-- A tag. -/
def tagged (s : Scan) : Option Scan := do
  let s := (← s.noteCandidate).allow false
  let (handle, rest) ← tag? s.place.rest
  if !atSpaceOrEnd rest && !(s.inFlow && rest.head? = some ',') then none
  return (s.goTo rest).emit (.tag handle)

/-- A block scalar. -/
def blockScalar (s : Scan) (literal : Bool) : Option Scan := do
  let s := (← s.dropCandidate).allow true
  let (text, rest) ← block? literal s.indent (s.place.rest.drop 1)
  return (s.goTo rest).emit (.scalar text false)

/-- A quoted scalar. -/
def quotedScalar (s : Scan) (read? : Text → Option (Text × Text)) : Option Scan := do
  let s := (← s.noteCandidate).allow false
  let (text, rest) ← read? (s.place.rest.drop 1)
  return (s.goTo rest).emit (.scalar text false)

/-- A plain scalar. -/
def plainScalar (s : Scan) : Option Scan := do
  let s := (← s.noteCandidate).allow false
  let (text, rest, broken) ←
    plain? s.inFlow (s.indent + 1).toNat s.place.column s.place.rest
  return ((s.goTo rest).allow broken).emit (.scalar text true)

/-- A directive, with the rest of its line. -/
def directive (s : Scan) : Option Scan := do
  let s := (← (s.closeBlocks (-1)).dropCandidate).allow false
  let (token, rest) ← directive? (s.place.rest.drop 1)
  return (s.goTo (← endOfLine? rest)).emit token

/-- The marks that start no plain scalar, unless what follows allows it. -/
def isIndicator (c : Char) : Bool := c ∈ "-?:,[]{}#&*!|>'\"%@`".toList

/-- Whether a plain scalar may start with `c` before `rest`. -/
def startsPlain (inFlow : Bool) (c : Char) (rest : Text) : Bool :=
  (!isSpaceOrBreak c && !isIndicator c) || (c = '-' && !rest.head?.any isSpace)
    || (!inFlow && (c = '?' || c = ':') && !atSpaceOrEnd rest)

/-- The token that starts with `c` before `rest`. -/
def token (s : Scan) (c : Char) (rest : Text) : Option Scan :=
  let lineStart := s.place.column = 0
  if lineStart && c = '%' then s.directive
  else if lineStart && atDocumentMark (c :: rest) then
    s.documentToken (if c = '-' then .documentStart else .documentEnd)
  else if c = '[' then s.flowStart .flowSequence
  else if c = '{' then s.flowStart .flowMapping
  else if c = ']' then s.flowEnd .flowSequenceEnd
  else if c = '}' then s.flowEnd .flowMappingEnd
  else if c = ',' then s.flowSeparator
  else if c = '-' && atSpaceOrEnd rest then s.blockEntry
  else if c = '?' && (s.inFlow || atSpaceOrEnd rest) then s.keyMark
  else if c = ':' && (s.inFlow || atSpaceOrEnd rest) then s.valueMark
  else if c = '*' then s.reference .alias
  else if c = '&' then s.reference .anchor
  else if c = '!' then s.tagged
  else if c = '|' && !s.inFlow then s.blockScalar true
  else if c = '>' && !s.inFlow then s.blockScalar false
  else if c = '\'' then s.quotedScalar singleQuoted?
  else if c = '"' then s.quotedScalar doubleQuoted?
  else if startsPlain s.inFlow c rest then s.plainScalar
  else none

/-- All tokens from a place on. At most `fuel` tokens are read. -/
def tokensFrom (fuel : Nat) (s : Scan) : Option (List Token) :=
  match fuel with
  | 0 => none
  | fuel + 1 => do
    let s ← (s.skipSpace (s.place.rest.length + 1)).dropStale
    let s := s.closeBlocks s.place.column
    match s.place.rest with
    | [] =>
      let s ← (s.closeBlocks (-1)).dropCandidate
      return s.tokens
    | c :: rest => tokensFrom fuel (← s.token c rest)

end Scan

-- ============================================================== text

/-- The text with each line break of another system as a newline. -/
def withNewlines : Text → Text
  | [] => []
  | '\r' :: '\n' :: rest => '\n' :: withNewlines rest
  | c :: rest => (if c = '\r' || c = '\u0085' then '\n' else c) :: withNewlines rest

/-- The characters a text may hold. -/
def isPrintable (c : Char) : Bool :=
  c = '\t' || c = '\n' || c = '\r' || (' ' ≤ c && c ≤ '~') || c = '\u0085'
    || ('\u00a0' ≤ c && c ≤ '\ufffd') || 0xFFFF < c.toNat

/-- The tokens of a text, unless it is malformed. -/
def scan? (t : Text) : Option (List Token) :=
  if !t.all isPrintable then none
  else
    let t := withNewlines t
    Scan.tokensFrom (t.length + 1) ⟨⟨t, 0, 0, 0⟩, [], [], true, [none]⟩

end Token

end SiteScaffold.Yaml

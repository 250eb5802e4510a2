/-
Scalars of YAML: plain, quoted, and in blocks. Each is read from the text right
after its first mark and answers its value with the text that follows it; there
is no answer for a scalar that is malformed.

Line breaks are folded: a single one counts as a space, and of several the
first is dropped.
-/
import SiteScaffold.Text.Basic

namespace SiteScaffold.Yaml

-- =============================================== character classes

/-- A line break. Those of other systems have been turned into newlines. -/
def isBreak (c : Char) : Bool := c = '\n' || c = '\u2028' || c = '\u2029'

/-- A space or tab. -/
def isSpace (c : Char) : Bool := c = ' ' || c = '\t'

/-- White space of any kind. -/
def isSpaceOrBreak (c : Char) : Bool := isSpace c || isBreak c

/-- Whether a text is at an end or at white space. -/
def atSpaceOrEnd (t : Text) : Bool :=
  match t with
  | [] => true
  | c :: _ => isSpaceOrBreak c

/-- Whether a text starts with a mark that begins or ends a document. -/
def atDocumentMark (t : Text) : Bool :=
  match t with
  | '-' :: '-' :: '-' :: rest => atSpaceOrEnd rest
  | '.' :: '.' :: '.' :: rest => atSpaceOrEnd rest
  | _ => false

/-- A mark of flow collections that ends a plain scalar in them. -/
def isFlowMark (c : Char) : Bool := c ∈ [',', '[', ']', '{', '}']

-- ============================================================ gaps

/-- White space within a scalar: the spaces up to the first line break, the
line breaks, the column where it ends, and whether a tab stands where
indentation is expected. -/
structure Gap where
  spaces : Text
  breaks : Text
  column : Nat
  tabbed : Bool

namespace Gap

/-- The white space a text starts with, after what was read of it already. -/
def read (indent : Nat) (gap : Gap) : Text → Gap × Text
  | [] => (gap, [])
  | c :: rest =>
    if isSpace c then
      if gap.breaks = [] then
        read indent { gap with spaces := gap.spaces ++ [c], column := gap.column + 1 } rest
      else
        let tabbed := gap.tabbed || (c = '\t' && gap.column < indent)
        read indent { gap with column := gap.column + 1, tabbed } rest
    else if isBreak c then
      read indent { gap with spaces := [], breaks := gap.breaks ++ [c], column := 0 } rest
    else (gap, c :: rest)

/-- What the white space contributes to the scalar. -/
def folded (gap : Gap) : Text :=
  match gap.breaks with
  | [] => gap.spaces
  | ['\n'] => [' ']
  | '\n' :: more => more
  | breaks => breaks

end Gap

-- =================================================== plain scalars

/-- The characters of a plain scalar up to white space or its end. -/
def plainRun (inFlow : Bool) : Text → Option (Text × Text)
  | [] => some ([], [])
  | c :: rest =>
    if isSpaceOrBreak c then some ([], c :: rest)
    else if inFlow && c = ':' && rest.head?.any (fun d => d = '?' || isFlowMark d) then none
    else if (c = ':' && atSpaceOrEnd rest) || (inFlow && isFlowMark c) then some ([], c :: rest)
    else (plainRun inFlow rest).map fun (run, rest) => (c :: run, rest)

/-- A plain scalar, its text after it, and whether line breaks follow it. The
`gap` has been read and counts only if the scalar goes on; at most `fuel` runs
are read. -/
def plainFrom (fuel : Nat) (inFlow : Bool) (indent : Nat) (gap : Gap) (t : Text) :
    Option (Text × Text × Bool) :=
  match fuel with
  | 0 => none
  | fuel + 1 =>
    let broken := gap.breaks ≠ []
    if (gap.column = 0 && atDocumentMark t) || t.head? = some '#' then some ([], t, broken)
    else do
      let (run, rest) ← plainRun inFlow t
      if run = [] then return ([], rest, broken)
      let text := gap.folded ++ run
      if !rest.head?.any isSpaceOrBreak then return (text, rest, false)
      let (next, rest) := Gap.read indent ⟨[], [], gap.column + run.length, false⟩ rest
      if next.tabbed then none
      else if !inFlow && next.column < indent then return (text, rest, next.breaks ≠ [])
      else
        let (more, rest, broken) ← plainFrom fuel inFlow indent next rest
        return (text ++ more, rest, broken)

/-- A plain scalar that starts in a column, the text after it, and whether line
breaks follow it. -/
def plain? (inFlow : Bool) (indent column : Nat) (t : Text) : Option (Text × Text × Bool) :=
  plainFrom (t.length + 1) inFlow indent ⟨[], [], column, false⟩ t

-- ================================================== quoted scalars

/-- How a run of a quoted scalar ends. -/
inductive RunEnd where
  | closed
  | space
  | escapedBreak

/-- The value of a hexadecimal digit. -/
def hexDigit? (c : Char) : Option Nat :=
  if c.isDigit then some (c.toNat - '0'.toNat)
  else if 'a' ≤ c && c ≤ 'f' then some (c.toNat - 'a'.toNat + 10)
  else if 'A' ≤ c && c ≤ 'F' then some (c.toNat - 'A'.toNat + 10)
  else none

/-- The value of hexadecimal digits. -/
def hexValue? (digits : Text) : Option Nat :=
  digits.foldlM (fun value c => (hexDigit? c).map (value * 16 + ·)) 0

/-- The character with the code that hexadecimal digits spell. -/
def hexChar? (digits : Text) : Option Char := do
  let code ← hexValue? digits
  if code.isValidChar then some (Char.ofNat code) else none

/-- The character that a one-letter escape stands for. -/
def escaped? (c : Char) : Option Char :=
  [('0', '\x00'), ('a', '\x07'), ('b', '\x08'), ('t', '\t'), ('\t', '\t'), ('n', '\n'),
    ('v', '\x0b'), ('f', '\x0c'), ('r', '\r'), ('e', '\x1b'), (' ', ' '), ('"', '"'),
    ('/', '/'), ('\\', '\\'), ('N', '\u0085'), ('_', '\u00a0'), ('L', '\u2028'),
    ('P', '\u2029')].lookup c

/-- A run with one more character in front. -/
def prepend (c : Char) : Text × RunEnd × Text → Text × RunEnd × Text
  | (run, stop, rest) => (c :: run, stop, rest)

/-- The characters of a single-quoted scalar up to white space or its end. -/
def singleRun : Text → Option (Text × RunEnd × Text)
  | [] => none
  | '\'' :: '\'' :: rest => (singleRun rest).map (prepend '\'')
  | '\'' :: rest => some ([], .closed, rest)
  | c :: rest =>
    if isSpaceOrBreak c then some ([], .space, c :: rest)
    else (singleRun rest).map (prepend c)

/-- The characters of a double-quoted scalar up to white space or its end. -/
def doubleRun : Text → Option (Text × RunEnd × Text)
  | [] => none
  | '"' :: rest => some ([], .closed, rest)
  | '\\' :: 'x' :: a :: b :: rest => do
    let c ← hexChar? [a, b]
    (doubleRun rest).map (prepend c)
  | '\\' :: 'u' :: a :: b :: c :: d :: rest => do
    let c ← hexChar? [a, b, c, d]
    (doubleRun rest).map (prepend c)
  | '\\' :: 'U' :: a :: b :: c :: d :: e :: f :: g :: h :: rest => do
    let c ← hexChar? [a, b, c, d, e, f, g, h]
    (doubleRun rest).map (prepend c)
  | '\\' :: c :: rest =>
    if isBreak c then some ([], .escapedBreak, rest)
    else do
      let c ← escaped? c
      (doubleRun rest).map (prepend c)
  | c :: rest =>
    if isSpaceOrBreak c then some ([], .space, c :: rest)
    else (doubleRun rest).map (prepend c)

/-- A quoted scalar, read by runs, with the text after it. At most `fuel` runs
are read; `lineStart` tells that the text is at the start of a line. -/
def quotedFrom (fuel : Nat) (run? : Text → Option (Text × RunEnd × Text)) (lineStart : Bool)
    (t : Text) : Option (Text × Text) :=
  match fuel with
  | 0 => none
  | fuel + 1 =>
    if lineStart && atDocumentMark t then none
    else do
      let (run, stop, rest) ← run? t
      match stop with
      | .closed => return (run, rest)
      | .space =>
        let (gap, rest) := Gap.read 0 ⟨[], [], 0, false⟩ rest
        let (more, rest) ← quotedFrom fuel run? (gap.breaks ≠ [] && gap.column = 0) rest
        return (run ++ gap.folded ++ more, rest)
      | .escapedBreak =>
        let (gap, rest) := Gap.read 0 ⟨[], ['\n'], 0, false⟩ rest
        let (more, rest) ← quotedFrom fuel run? (gap.column = 0) rest
        return (run ++ gap.breaks.tail ++ more, rest)

/-- A single-quoted scalar after its quote, with the text after it. -/
def singleQuoted? (t : Text) : Option (Text × Text) :=
  quotedFrom (t.length + 1) singleRun false t

/-- A double-quoted scalar after its quote, with the text after it. -/
def doubleQuoted? (t : Text) : Option (Text × Text) :=
  quotedFrom (t.length + 1) doubleRun false t

-- =================================================== block scalars

/-- What happens to the line breaks at the end of a block. -/
inductive Chomp where
  | strip
  | clip
  | keep
  deriving DecidableEq

/-- The chomping that a sign asks for. -/
def chomp? (c : Char) : Option Chomp :=
  if c = '+' then some .keep else if c = '-' then some .strip else none

/-- The indentation that a digit asks for. -/
def increment? (c : Char) : Option Nat :=
  if '1' ≤ c && c ≤ '9' then some (c.toNat - '0'.toNat) else none

/-- The text after the rest of a line that holds nothing but spaces and a
comment. -/
def endOfLine? (t : Text) : Option Text :=
  let t := t.dropWhile isSpace
  let t := if t.head? = some '#' then t.dropWhile (!isBreak ·) else t
  match t with
  | [] => some []
  | c :: rest => if isBreak c then some rest else none

/-- The head of a block after its mark: chomping and indentation, in either
order, and the text from the next line on. -/
def blockHead? (t : Text) : Option (Chomp × Option Nat × Text) :=
  let (chomp, t) :=
    match t with
    | c :: rest => if let some chomp := chomp? c then (some chomp, rest) else (none, t)
    | [] => (none, t)
  let (increment, t) :=
    match t with
    | c :: rest => if let some increment := increment? c then (some increment, rest) else (none, t)
    | [] => (none, t)
  let (chomp, t) :=
    match chomp, increment, t with
    | none, some _, c :: rest =>
      if let some chomp := chomp? c then (some chomp, rest) else (none, t)
    | chomp, _, _ => (chomp, t)
  (endOfLine? t).map fun rest => (chomp.getD .clip, increment, rest)

/-- Indentation and empty lines in a block: the line breaks, the column where
they end, and the deepest column on the way. -/
structure Margin where
  breaks : Text
  column : Nat
  deepest : Nat

/-- The margin a text starts with, after what was read of it already. Spaces
belong to it up to the indentation of the block, if that is known; a tab before
that is malformed. -/
def Margin.read (indent : Option Nat) (margin : Margin) : Text → Option (Margin × Text)
  | [] => some (margin, [])
  | c :: rest =>
    let outside := indent.all (margin.column < ·)
    if outside && c = ' ' then
      let column := margin.column + 1
      read indent { margin with column, deepest := max margin.deepest column } rest
    else if outside && c = '\t' then none
    else if isBreak c then
      read indent { margin with breaks := margin.breaks ++ [c], column := 0 } rest
    else some (margin, c :: rest)

/-- The lines of a block: what they amount to, the last line break, the line
breaks after it, and the text after the block. At most `fuel` lines are
read. -/
def blockLines (fuel : Nat) (literal : Bool) (indent column : Nat)
    (lastBreak : Text) (breaks : Text) (indented : Bool) (t : Text) :
    Option (Text × Text × Text × Text) :=
  match fuel with
  | 0 => none
  | fuel + 1 =>
    if column ≠ indent || t = [] then some ([], lastBreak, breaks, t)
    else do
      let startsIndented := t.head?.any isSpace
      let folds := !literal && lastBreak = ['\n'] && !indented && !startsIndented
      let joint : Text := if folds then (if breaks = [] then [' '] else []) else lastBreak
      let line := t.takeWhile (!isBreak ·)
      let rest := t.dropWhile (!isBreak ·)
      let (margin, next) ← Margin.read (some indent) ⟨[], 0, 0⟩ (rest.drop 1)
      let (more, lastBreak, tail, rest) ←
        blockLines fuel literal indent margin.column (rest.take 1) margin.breaks startsIndented
          next
      return (joint ++ breaks ++ line ++ more, lastBreak, tail, rest)

/-- A block scalar after its mark, in a collection indented to `outer`, with the
text after it. -/
def block? (literal : Bool) (outer : Int) (t : Text) : Option (Text × Text) := do
  let (chomp, increment, t) ← blockHead? t
  let given := increment.map fun n => if outer < 0 then n else outer.toNat + n
  let (margin, t) ← Margin.read given ⟨[], 0, 0⟩ t
  let indent := given.getD (max (max margin.deepest (outer + 1).toNat) 1)
  let (text, lastBreak, tail, rest) ←
    blockLines (t.length + 1) literal indent margin.column [] margin.breaks false t
  let kept := if chomp = .strip then [] else lastBreak
  return (text ++ kept ++ (if chomp = .keep then tail else []), rest)

end SiteScaffold.Yaml

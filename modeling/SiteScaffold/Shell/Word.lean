/-
Reading words. What a character does depends on where it stands: outside quotes,
in single or double quotes, or in arithmetic; and a parameter in braces opens a
place of its own within any of these. The places are kept on a stack of frames
while the characters are turned into items, and the items, whose openings and
closings fit, are put together as the parts of the word.
-/
import SiteScaffold.Shell.Source

namespace SiteScaffold.Shell

/-- What a word is made of, in the order in which it is read. A parameter with an
operator and an expression are open until their end is met. -/
inductive Item where
  | char (c : Char) (quoted : Bool)
  | mark
  | param (name : Raw) (operator : Operator) (colon : Bool)
  | paramEnd
  | output (body : Option Script)
  | number
  | numberEnd

namespace Item

/-- A part that is open: what will become of it, what was read before it, and
whether that was in quotes. -/
structure Opened where
  close : List Part → Part
  before : List Part
  outer : Bool
  inQuotes : Bool

/-- The parts that items amount to. `outer` tells that all of it is quoted,
`inQuotes` that an odd number of quotation marks was met; `done` is what was read,
the last part first. All arguments in quotes are fields of their own if nothing
else stands in those quotes. -/
def assemble (outer inQuotes : Bool) (done : List Part) (opened : List Opened) :
    List Item → List Part
  | [] => done.reverse
  | item :: rest =>
    let quoted := outer || inQuotes
    match item, rest with
    | .char c q, rest =>
      assemble outer inQuotes (.char c (q || quoted) :: done) opened rest
    | .mark, .param ['@'] .plain colon :: .mark :: rest =>
      if inQuotes then
        assemble outer true (.mark :: .param ['@'] .plain colon [] outer :: .mark :: done) opened rest
      else assemble outer false (.param ['@'] .plain colon [] true :: done) opened rest
    | .mark, rest => assemble outer (!inQuotes) (.mark :: done) opened rest
    | .param name .plain colon, rest =>
      assemble outer inQuotes (.param name .plain colon [] quoted :: done) opened rest
    | .param name operator colon, rest =>
      let argumentQuoted := match operator with
        | .minus | .plus => quoted
        | _ => false
      assemble argumentQuoted false []
        (⟨(.param name operator colon · quoted), done, outer, inQuotes⟩ :: opened) rest
    | .output body, rest => assemble outer inQuotes (.output body quoted :: done) opened rest
    | .number, rest =>
      assemble false false [] (⟨(.number · quoted), done, outer, inQuotes⟩ :: opened) rest
    | .paramEnd, rest | .numberEnd, rest =>
      match opened with
      | [] => assemble outer inQuotes done [] rest
      | top :: opened =>
        assemble top.outer top.inQuotes (top.close done.reverse :: top.before) opened rest

end Item

-- =========================================================== places

/-- Where a character stands. -/
inductive Kind where
  | bare
  | single
  | double
  | arithmetic
  deriving DecidableEq

/-- What a character does. -/
inductive Role where
  | newline
  | plain
  | escape
  | openSingle
  | openDouble
  | closeQuote
  | dollar
  | closeBrace
  | openParen
  | closeParen
  | backquote
  | separator
  deriving DecidableEq

/-- What a character does at a place. -/
def Kind.role (kind : Kind) (c : Char) : Role :=
  if c = '\n' then .newline
  else if kind = .single then (if c = '\'' then .closeQuote else .plain)
  else if c = '\\' then .escape
  else if c = '$' then .dollar
  else if c = '\x60' then .backquote
  else if c = '}' then .closeBrace
  else
    match kind with
    | .bare =>
      if c = '\'' then .openSingle
      else if c = '"' then .openDouble
      else if c ∈ ['<', '>', '(', ')', ';', '&', '|', ' ', '\t'] then .separator
      else .plain
    | .double => if c = '"' then .closeQuote else .plain
    | .arithmetic =>
      if c = '(' then .openParen else if c = ')' then .closeParen else .plain
    | .single => .plain

/-- A place that is open: how many braces are open in it, how many of them were
opened in double quotes, whether quotes were opened inside of those, how many
parentheses are open, and whether the place ends with a brace. -/
structure Frame where
  kind : Kind
  inDouble : Bool
  braces : Nat
  quotedBraces : Nat
  inner : Bool
  parens : Nat
  endsWithBrace : Bool

/-- A place that was just opened. -/
def Frame.opened (kind : Kind) (endsWithBrace : Bool) : Frame :=
  ⟨kind, kind = .double || kind = .arithmetic, 0, 0, false, 0, endsWithBrace⟩

/-- How far the reading of a word has come: the places that are open, the items
so far, the last first, and whether something in the word is quoted. -/
structure Lexing where
  top : Frame
  below : List Frame
  items : List Item
  quoted : Bool

namespace Lexing

def emit (x : Lexing) (item : Item) : Lexing := { x with items := item :: x.items }

/-- A character as it stands; all but those outside quotes are quoted. -/
def char (x : Lexing) (c : Char) : Lexing :=
  x.emit (.char c (x.top.kind = .single || x.top.kind = .double))

def push (x : Lexing) (frame : Frame) : Lexing :=
  { x with top := frame, below := x.top :: x.below }

def pop (x : Lexing) : Lexing :=
  match x.below with
  | [] => x
  | frame :: below => { x with top := frame, below }

/-- A quotation mark; a text in the script has none. -/
def mark (x : Lexing) (isText : Bool) : Lexing := if isText then x else x.emit .mark

/-- A double quotation mark, which may stand inside braces. -/
def doubleMark (x : Lexing) (isText : Bool) : Lexing :=
  let inner := if x.top.braces > 0 then !x.top.inner else x.top.inner
  { x with top := { x.top with inner } }.mark isText

end Lexing

/-- What the reading of words needs to know: how commands are read that a word
asks for, whether it is a text in the script that is read, and whether it is the
mark of such a text. -/
structure WordMode where
  commands : Reader (Option Script)
  isText : Bool
  isMark : Bool

namespace Lexing

-- ======================================================= parameters

/-- The parameters with a name of one mark. -/
def isSpecial (c : Char) : Bool := c ∈ ['@', '*', '#', '?', '-', '$', '!']

/-- The characters of one kind from a place on, and the one after them. -/
def run (ok : Char → Bool) (fuel : Nat) (done : Raw) (c : Option Char) :
    Reader (Raw × Option Char) :=
  match fuel, c with
  | fuel + 1, some d => do
    if ok d then run ok fuel (d :: done) (← Reader.nextJoined) else return (done.reverse, c)
  | _, _ => return (done.reverse, c)

/-- The operator that starts with a character, and whether it has a colon. -/
def operator (c : Option Char) : Reader (Operator × Bool) := do
  let (colon, c) ← if c = some ':' then do pure (true, ← Reader.nextJoined) else pure (false, c)
  let trim := fun (make : Bool → Operator) => do
    let d ← Reader.nextJoined
    if d = c then return (make true, colon)
    Reader.putBack d
    return (make false, colon)
  match c with
  | some '}' => return (if colon then .unknown else .plain, colon)
  | some '-' => return (.minus, colon)
  | some '+' => return (.plus, colon)
  | some '?' => return (.question, colon)
  | some '=' => return (.assign, colon)
  | some '#' => if colon then return (.unknown, colon) else trim .trimStart
  | some '%' => if colon then return (.unknown, colon) else trim .trimEnd
  | _ => return (.unknown, colon)

/-- The parameter after an opening brace: its name, operator and colon. -/
def braced (fuel : Nat) (c : Option Char) : Reader (Raw × Operator × Bool) := do
  let named := fun (ok : Char → Bool) (isLength : Bool) (c : Option Char) => do
    let (name, c) ← run ok fuel [] c
    if isLength then
      Reader.putBack c
      return (name, if c = some '}' then Operator.length else .unknown, false)
    let (op, colon) ← operator c
    return (name, op, colon)
  match c with
  | none => return ([], .unknown, false)
  | some first =>
    if Raw.isNameStart first then named Raw.isNameChar false c
    else if first.isDigit then named Char.isDigit false c
    else if first = '}' then
      Reader.putBack c
      return ([], .unknown, false)
    else
      let second ← Reader.nextJoined
      if first = '#' then
        if second.any Raw.isNameStart then return ← named Raw.isNameChar true second
        if second.any Char.isDigit then return ← named Char.isDigit true second
        let third ← Reader.nextJoined
        if second = some '}' || third ≠ some '}' then
          Reader.putBack third
          let (op, colon) ← operator second
          return (['#'], op, colon)
        Reader.putBack third
        if second.any isSpecial then return (second.toList, .length, false)
        return ([], .unknown, false)
      else if isSpecial first then
        let (op, colon) ← operator second
        return ([first], op, colon)
      else
        Reader.putBack second
        return ([], .unknown, false)

/-- A parameter in braces. One with an operator stays open; a pattern is read as
if it stood outside quotes. -/
def openBrace (x : Lexing) (name : Raw) (op : Operator) (colon : Bool) : Lexing :=
  let x := x.emit (.param name op colon)
  if op = .plain then x
  else
    let kind := match op with
      | .trimStart _ | .trimEnd _ => .bare
      | _ => if x.top.kind = .arithmetic then .double else x.top.kind
    let x := if kind ≠ x.top.kind || x.top.inner then x.push (.opened kind true) else x
    let quotedBraces := if x.top.inDouble then x.top.quotedBraces + 1 else x.top.quotedBraces
    { x with top := { x.top with braces := x.top.braces + 1, quotedBraces } }

-- ====================================================== backquotes

/-- The text up to a backquote. A backslash keeps its meaning unless it stands
before a backquote, a dollar sign or another one. -/
def untilBackquote (inDouble : Bool) (fuel : Nat) (done : Raw) : Reader Raw := do
  match fuel with
  | 0 => Reader.fault "EOF in backquote substitution"
  | fuel + 1 =>
    match ← Reader.nextJoined with
    | none => Reader.fault "EOF in backquote substitution"
    | some '\x60' => return done.reverse
    | some '\\' =>
      match ← Reader.next with
      | none => Reader.fault "EOF in backquote substitution"
      | some c =>
        if c = '\\' || c = '\x60' || c = '$' || (inDouble && c = '"') then
          untilBackquote inDouble fuel (c :: done)
        else untilBackquote inDouble fuel (c :: '\\' :: done)
    | some c =>
      if c = '\n' then Reader.countLine
      untilBackquote inDouble fuel (c :: done)

/-- The commands between backquotes, which are read as a script of their own. -/
def backquoted (mode : WordMode) (x : Lexing) : Reader Lexing := do
  let s ← get
  let inner ← untilBackquote x.top.inDouble s.size []
  let s ← get
  set { Source.ofRaw inner s.aliases s.nextText with texts := s.texts }
  let body ← mode.commands
  let after ← get
  set { s with texts := after.texts, nextText := after.nextText }
  return x.emit (.output body)

/-- The commands between parentheses. -/
def inParens (mode : WordMode) (x : Lexing) : Reader Lexing := do
  let waiting := (← get).waiting
  modify fun s => { s with waiting := [] }
  let body ← mode.commands
  match (← get).held with
  | some .closing =>
    modify fun s => { s with held := none, waiting }
    return x.emit (.output body)
  | some token => Reader.fault (token.name ++ " unexpected (expecting \")\")")
  | none => Reader.fault "end of file unexpected (expecting \")\")"

-- ========================================================= one step

/-- What a dollar sign opens. -/
def dollar (mode : WordMode) (x : Lexing) : Reader Lexing := do
  let c ← Reader.nextJoined
  let size := (← get).size
  if mode.isMark then
    Reader.putBack c
    return x.char '$'
  match c with
  | some '(' =>
    let d ← Reader.nextJoined
    if d = some '(' then return (x.push (.opened .arithmetic false)).emit .number
    Reader.putBack d
    inParens mode x
  | some '{' =>
    let (name, op, colon) ← braced size (← Reader.nextJoined)
    return x.openBrace name op colon
  | some first =>
    if Raw.isNameStart first then
      let (name, after) ← run Raw.isNameChar size [] c
      Reader.putBack after
      return x.emit (.param name .plain false)
    else if first.isDigit || isSpecial first then return x.emit (.param [first] .plain false)
    else
      Reader.putBack c
      return x.char '$'
  | none => return x.char '$'

/-- What a backslash does to the character after it. -/
def escape (mode : WordMode) (x : Lexing) : Reader Lexing := do
  match ← Reader.next with
  | none => return x.emit (.char '\\' true)
  | some c =>
    let keeps := x.top.inDouble && c ≠ '\\' && c ≠ '\x60' && c ≠ '$'
      && (c ≠ '"' || (mode.isText && x.top.braces = 0)) && (c ≠ '}' || x.top.braces = 0)
    let x := if keeps then x.emit (.char '\\' true) else x
    return { x.emit (.char c true) with quoted := true }

/-- A quotation mark that closes quotes. -/
def closeQuote (mode : WordMode) (x : Lexing) (c : Char) : Lexing :=
  if mode.isText && x.top.braces = 0 then x.char c
  else
    let top := if x.top.quotedBraces = 0 then { x.top with kind := .bare, inDouble := false }
      else x.top
    let x := { x with top, quoted := true }
    if c = '"' then x.doubleMark mode.isText else x.mark mode.isText

/-- A closing brace. -/
def closeBrace (x : Lexing) : Lexing :=
  if x.top.inner || x.top.braces = 0 then x.char '}'
  else
    let braces := x.top.braces - 1
    let y := { x with top := { x.top with braces } }
    let y := if braces = 0 && x.top.endsWithBrace then y.pop
      else { y with top := { y.top with quotedBraces := y.top.quotedBraces - 1 } }
    y.emit .paramEnd

/-- A closing parenthesis in arithmetic. -/
def closeParen (x : Lexing) : Reader Lexing := do
  if x.top.parens > 0 then
    return { x.char ')' with top := { x.top with parens := x.top.parens - 1 } }
  let c ← Reader.nextJoined
  if c = some ')' then return x.pop.emit .numberEnd
  Reader.putBack c
  return x.char ')'

/-- What a character makes of the word; nothing if the word ends before it. -/
def step (mode : WordMode) (x : Lexing) (c : Char) : Reader (Option Lexing) := do
  match x.top.kind.role c with
  | .newline =>
    if x.top.kind = .bare && x.top.braces = 0 then return none
    Reader.countLine
    return some (x.char c)
  | .plain => return some (x.char c)
  | .escape => return some (← x.escape mode)
  | .openSingle =>
    return some ({ x with top := { x.top with kind := .single } }.mark mode.isText)
  | .openDouble =>
    let top := { x.top with kind := .double, inDouble := true }
    return some ({ x with top }.doubleMark mode.isText)
  | .closeQuote => return some (x.closeQuote mode c)
  | .dollar => return some (← x.dollar mode)
  | .closeBrace => return some x.closeBrace
  | .openParen => return some { x.char c with top := { x.top with parens := x.top.parens + 1 } }
  | .closeParen => return some (← x.closeParen)
  | .backquote => if mode.isMark then return some (x.char c) else return some (← x.backquoted mode)
  | .separator => if x.top.braces = 0 then return none else return some (x.char c)

/-- The next character at a place; continued lines are joined except in single
quotes. -/
def nextChar (x : Lexing) : Reader (Option Char) :=
  if x.top.kind = .single then Reader.next else Reader.nextJoined

/-- Reads on from a character to the end of the word; answers the character that
ended it. -/
def loop (mode : WordMode) (fuel : Nat) (x : Lexing) (c : Option Char) :
    Reader (Lexing × Option Char) := do
  match fuel, c with
  | fuel + 1, some d =>
    match ← x.step mode d with
    | some y => loop mode fuel y (← y.nextChar)
    | none => return (x, c)
  | _, _ => return (x, c)

/-- Complains about what is still open at the end of a word. -/
def check (mode : WordMode) (x : Lexing) : Reader Unit := do
  if x.top.kind = .arithmetic then Reader.fault "Missing '))'"
  if x.top.kind ≠ .bare && !mode.isText then Reader.fault "Unterminated quoted string"
  if x.top.braces ≠ 0 then Reader.fault "Missing '\x7d'"

/-- The word that has been read. -/
def word (x : Lexing) (outer : Bool) : Word := Item.assemble outer false [] [] x.items.reverse

/-- Reads a word from its first character on; answers the character after it. -/
def read (mode : WordMode) (c : Option Char) : Reader (Lexing × Option Char) := do
  let (x, after) ← loop mode (← get).size ⟨.opened .bare false, [], [], false⟩ c
  x.check mode
  return (x, after)

-- ============================================== texts in the script

/-- What is ahead of a line that may be the mark of a text's end: the rest after
the mark, if it is, or the line to be read. -/
def afterMark (waiting : Waiting) (ahead : Raw) : Bool × Raw :=
  let line := if waiting.withoutTabs then ahead.dropWhile (· = '\t') else ahead
  match Text.after? waiting.mark line with
  | some [] => (true, [])
  | some ('\n' :: rest) => (true, rest)
  | _ => (false, line)

/-- Reads on in a text in the script, at the start of a line or not. -/
def textLoop (mode : WordMode) (waiting : Waiting) (fuel : Nat) (lineStart : Bool) (x : Lexing) :
    Reader Lexing := do
  match fuel with
  | 0 => return x
  | fuel + 1 =>
    if lineStart then
      let s ← get
      let (ahead, lines) := if waiting.asItStands then (s.ahead, 0) else Reader.joined 0 s.ahead
      let (ends, ahead) := afterMark waiting ahead
      set { s with ahead, line := s.line + lines }
      if ends then
        Reader.countLine
        return x
    match ← if lineStart then Reader.next else x.nextChar with
    | none => return x
    | some c =>
      match ← x.step mode c with
      | none => return x
      | some y => textLoop mode waiting fuel (c = '\n') y

/-- Reads a text in the script that was waiting. -/
def readText (commands : Reader (Option Script)) (waiting : Waiting) : Reader Unit := do
  let mode : WordMode := ⟨commands, true, false⟩
  let kind : Kind := if waiting.asItStands then .single else .double
  let size := (← get).size
  let x ← textLoop mode waiting (2 * size) true ⟨.opened kind false, [], [], false⟩
  x.check mode
  modify fun s => { s with texts := (waiting.number, x.word true) :: s.texts }

/-- Reads the texts in the script that are waiting. -/
def readTexts (commands : Reader (Option Script)) : Reader Unit := do
  let waiting := (← get).waiting
  modify fun s => { s with waiting := [] }
  waiting.forM (readText commands)

end Lexing

end SiteScaffold.Shell

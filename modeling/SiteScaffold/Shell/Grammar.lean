/-
The grammar of scripts. A script is read one complete command after the other,
so that the commands before a fault have run when it is found. What a token is
depends on where it stands, and every reader of a token says what it takes a word
for.

The parts of the grammar that contain one another are written against a reader
of their parts; `parse` ties the knot, with a bound on the depth.
-/
import SiteScaffold.Shell.Word

namespace SiteScaffold.Shell

/-- What a token is taken for where it is read: whether line ends are passed over,
whether words may be keywords or aliases, and whether it is the mark of a text in
the script. -/
structure Want where
  newlines : Bool
  keywords : Bool
  aliases : Bool
  mark : Bool

namespace Want

/-- A word that is nothing but a word. -/
def word : Want := ⟨false, false, false, false⟩

/-- The first word of a command. -/
def first : Want := ⟨false, false, true, false⟩

/-- A keyword on the same line, or the first word of a command. -/
def keyword : Want := ⟨false, true, true, false⟩

/-- A keyword or the first word of a command, on this line or a later one. -/
def command : Want := ⟨true, true, true, false⟩

end Want

/-- What is read by the grammar: commands up to the end of a line, some commands,
some or no commands, or a single command. -/
inductive Goal where
  | line
  | some
  | any
  | single
  deriving DecidableEq

/-- Reads a part of a script. -/
abbrev Parts := Goal → Reader (Option Script)

namespace Grammar

-- ========================================================== tokens

/-- Complains about a token, and tells what was expected. -/
def unexpected {α : Type} (token : Token) (expected : Option Token) : Reader α :=
  match expected with
  | none => Reader.fault (token.name ++ " unexpected")
  | some e => Reader.fault (token.name ++ " unexpected (expecting " ++ e.name ++ ")")

/-- Passes over the rest of a line. -/
def skipComment : Reader Unit :=
  modify fun s => { s with ahead := s.ahead.dropWhile (· ≠ '\n') }

/-- The mark of a redirection after its first character. -/
def redirectMark (c : Char) : Reader RedirectMark := do
  let d ← Reader.nextJoined
  if c = '>' then
    match d with
    | some '>' => return .to .append
    | some '|' => return .to .overwrite
    | some '&' => return .to .duplicate
    | _ =>
      Reader.putBack d
      return .to .write
  else
    match d with
    | some '<' =>
      let e ← Reader.nextJoined
      if e = some '-' then return .here true
      Reader.putBack e
      return .here false
    | some '&' => return .to .duplicate
    | some '>' => return .to .readWrite
    | _ =>
      Reader.putBack d
      return .to .read

/-- The word that starts with a character; a digit or nothing before an angle
bracket makes a redirection with it. -/
def wordToken (mode : WordMode) (c : Char) : Reader Token := do
  let (x, after) ← Lexing.read mode (some c)
  let redirect := fun (mark : Char) (channel : Option Char) => do
    let usual := if mark = '>' then 1 else 0
    return Token.redirect ((channel.map fun d => d.toNat - '0'.toNat).getD usual)
      (← redirectMark mark)
  match after, x.items with
  | some '<', [] => if x.quoted then plain x after else redirect '<' none
  | some '>', [] => if x.quoted then plain x after else redirect '>' none
  | some '<', [.char d false] => if d.isDigit then redirect '<' (some d) else plain x after
  | some '>', [.char d false] => if d.isDigit then redirect '>' (some d) else plain x after
  | _, _ => plain x after
where
  /-- The word itself. -/
  plain (x : Lexing) (after : Option Char) : Reader Token := do
    Reader.putBack after
    return .word (x.word false) x.quoted

/-- The next token as it stands. -/
def bareToken (mode : WordMode) (fuel : Nat) : Reader Token := do
  match fuel with
  | 0 => return .eof
  | fuel + 1 =>
    let doubled := fun (mark : Char) (double single : Token) => do
      let d ← Reader.nextJoined
      if d = some mark then return double
      Reader.putBack d
      return single
    match ← Reader.nextJoined with
    | none => return .eof
    | some ' ' | some '\t' => bareToken mode fuel
    | some '#' =>
      skipComment
      bareToken mode fuel
    | some '\n' =>
      Reader.countLine
      return .newline
    | some '&' => doubled '&' .both .ampersand
    | some '|' => doubled '|' .either .pipe
    | some ';' => doubled ';' .endClause .semicolon
    | some '(' => return .opening
    | some ')' => return .closing
    | some c => wordToken mode c

/-- The alias that a word stands for, unless it is being read. -/
def alias? (name : Raw) : Reader (Option Raw) := do
  let s ← get
  let ahead := s.ahead.length
  let inUse := s.inUse.filter fun (_, stop) => stop < ahead
  if (inUse.lookup name).isSome then return none
  return s.aliases.lookup name

/-- The next token, taken for what is wanted. An alias is put in the place of its
name; if it ends in a blank, the word after it may be an alias, too. -/
def token (parts : Parts) (fuel : Nat) (want : Want) : Reader Token := do
  match fuel with
  | 0 => return .eof
  | fuel + 1 =>
    let s ← get
    let found ← match s.held with
      | some token => do
        set { s with held := none }
        pure token
      | none => bareToken ⟨parts .any, false, want.mark⟩ s.size
    match found with
    | .newline =>
      if !want.newlines then return .newline
      Lexing.readTexts (parts .any)
      token parts fuel want
    | .word w false =>
      match plainText? w with
      | none => return found
      | some name =>
        if want.keywords && name ∈ Token.keywords then return .keyword name
        if !want.aliases || (← get).aliases.isEmpty then return found
        match ← alias? name with
        | none => return found
        | some value =>
          modify fun s => { s with
            ahead := value ++ s.ahead
            size := s.size + value.length
            inUse := (name, s.ahead.length) :: s.inUse }
          token parts fuel want
    | _ => return found

/-- The next token. -/
def next (parts : Parts) (want : Want) : Reader Token := do
  token parts (2 * (← get).size) want

/-- Passes over a keyword, which has to come next. -/
def expect (parts : Parts) (want : Want) (k : Raw) : Reader Unit := do
  let found ← next parts want
  match found with
  | .keyword found => if found ≠ k then unexpected (.keyword found) (some (.keyword k))
  | _ => unexpected found (some (.keyword k))

-- ==================================================== redirections

/-- The mark that ends a text in the script, as a word spells it out. -/
def markText (w : Word) : Raw :=
  w.filterMap fun
    | .char c _ => some c
    | _ => none

/-- The redirection that a mark starts. -/
def redirection (parts : Parts) (channel : Nat) (mark : RedirectMark) : Reader Redirect := do
  match mark with
  | .to kind =>
    let found ← next parts .word
    match found with
    | .word w _ => return .to channel kind w
    | _ => unexpected found none
  | .here withoutTabs =>
    let found ← next parts { Want.word with mark := true }
    match found with
    | .word w quoted =>
      let s ← get
      let waiting : Waiting := ⟨s.nextText, markText w, withoutTabs, quoted⟩
      set { s with nextText := s.nextText + 1, waiting := s.waiting ++ [waiting] }
      return .here channel waiting.number
    | _ => unexpected found none

/-- The redirections after a compound command. -/
def redirections (parts : Parts) (fuel : Nat) (done : List Redirect) : Reader (List Redirect) := do
  match fuel with
  | 0 => return done.reverse
  | fuel + 1 =>
    match ← next parts .keyword with
    | .redirect channel mark =>
      redirections parts fuel ((← redirection parts channel mark) :: done)
    | other =>
      Reader.hold other
      return done.reverse

-- ================================================= simple commands

/-- Whether a word assigns to a variable. -/
def isAssignment (w : Word) : Bool :=
  let nameParts := w.takeWhile fun
    | .char c false => Raw.isNameChar c
    | _ => false
  let isNamed := match nameParts with
    | .char c _ :: _ => Raw.isNameStart c
    | _ => false
  match w.drop nameParts.length with
  | .char '=' false :: _ => isNamed
  | _ => false

/-- The commands whose names no function may have. -/
def specialNames : List Raw :=
  [":", ".", "break", "continue", "eval", "exec", "exit", "export", "local", "readonly", "return",
    "set", "shift", "times", "trap", "unset"]

/-- What has been read of a simple command, the last first. -/
structure Gathered where
  assignments : List Word
  words : List Word
  redirects : List Redirect

/-- The command that was gathered. -/
def Gathered.command (g : Gathered) (line : Nat) : Script :=
  .simple line g.assignments.reverse g.words.reverse g.redirects.reverse

/-- Reads on in a simple command, or in the definition of a function if a
parenthesis comes after its first word. -/
def simpleFrom (parts : Parts) (fuel line : Nat) (g : Gathered) : Reader Script := do
  match fuel with
  | 0 => return g.command line
  | fuel + 1 =>
    let atFirst := g.words.isEmpty
    let found ← next parts (if atFirst then .first else .word)
    match found with
    | .word w _ =>
      if atFirst && isAssignment w then
        simpleFrom parts fuel line { g with assignments := w :: g.assignments }
      else simpleFrom parts fuel line { g with words := w :: g.words }
    | .redirect channel mark =>
      let r ← redirection parts channel mark
      simpleFrom parts fuel line { g with redirects := r :: g.redirects }
    | .opening =>
      match g with
      | ⟨[], [w], []⟩ =>
        match ← next parts .word with
        | .closing => pure ()
        | other => unexpected other (some .closing)
        match plainText? w with
        | none => Reader.fault "Bad function name"
        | some name =>
          if !Raw.isName name || name ∈ specialNames then Reader.fault "Bad function name"
          let line := (← get).line
          match ← parts .single with
          | some body => return .define line name body
          | none => return g.command line
      | _ =>
        Reader.hold found
        return g.command line
    | _ =>
      Reader.hold found
      return g.command line

-- =============================================== compound commands

/-- Some commands. -/
def commands (parts : Parts) : Reader Script := do
  return (← parts .some).getD (.list [])

/-- A conditional after its `if` or `elif`. -/
def branch (parts : Parts) (fuel : Nat) : Reader Script := do
  match fuel with
  | 0 => return .list []
  | fuel + 1 =>
    let test ← commands parts
    expect parts .keyword "then"
    let yes ← commands parts
    let found ← next parts .keyword
    match found with
    | .keyword k =>
      if k = "elif" then return .branch test yes (some (← branch parts fuel))
      if k = "else" then
        let no ← commands parts
        expect parts .keyword "fi"
        return .branch test yes (some no)
      if k = "fi" then return .branch test yes none
      unexpected found (some (.keyword "fi"))
    | _ => unexpected found (some (.keyword "fi"))

/-- The words of a `for`, up to the end of the line. -/
def wordList (parts : Parts) (fuel : Nat) (done : List Word) : Reader (List Word × Token) := do
  match fuel with
  | 0 => return (done.reverse, .eof)
  | fuel + 1 =>
    match ← next parts .word with
    | .word w _ => wordList parts fuel (w :: done)
    | other => return (done.reverse, other)

/-- A loop over words after its `for`. -/
def eachWord (parts : Parts) (line : Nat) : Reader Script := do
  match ← next parts .word with
  | .word w false =>
    match plainText? w with
    | none => Reader.fault "Bad for loop variable"
    | some name =>
      if !Raw.isName name then Reader.fault "Bad for loop variable"
      let found ← next parts .command
      let isIn := match found with
        | .keyword k => decide (k = "in")
        | _ => false
      let words ← if isIn then do
          let (words, stop) ← wordList parts (← get).size []
          match stop with
          | .newline =>
            Lexing.readTexts (parts .any)
            pure words
          | .semicolon => pure words
          | other => unexpected other none
        else do
          match found with
          | .semicolon => pure ()
          | other => Reader.hold other
          pure [[Part.param ['@'] .plain false [] true]]
      expect parts .command "do"
      let body ← commands parts
      return .each line name words body
  | _ => Reader.fault "Bad for loop variable"

/-- The patterns of a clause after its first token. That it is a word shows only
at what follows it. -/
def patterns (parts : Parts) (fuel : Nat) (done : List Word) (found : Token) :
    Reader (List Word) := do
  match fuel with
  | 0 => return done.reverse
  | fuel + 1 =>
    let w ← match found with
      | .word w _ => pure w
      | .keyword k => pure (k.map (Part.char · false))
      | _ => pure []
    match ← next parts .word with
    | .pipe => patterns parts fuel (w :: done) (← next parts .word)
    | .closing => return (w :: done).reverse
    | other => unexpected other (some .closing)

/-- The clauses of a `case`, with the keyword that ends them. -/
def clauses (parts : Parts) (fuel : Nat) (done : List (List Word × Option Script)) :
    Reader (List (List Word × Option Script)) := do
  match fuel with
  | 0 => return done.reverse
  | fuel + 1 =>
    let found ← next parts ⟨true, true, false, false⟩
    let ends := match found with
      | .keyword k => decide (k = "esac")
      | _ => false
    if ends then return done.reverse
    let found ← match found with
      | .opening => next parts .word
      | other => pure other
    let found ← patterns parts (← get).size [] found
    let body ← parts .any
    let done := (found, body) :: done
    match ← next parts ⟨true, true, false, false⟩ with
    | .endClause => clauses parts fuel done
    | .keyword k =>
      if k = "esac" then return done.reverse else unexpected (.keyword k) (some .endClause)
    | other => unexpected other (some .endClause)

/-- A `case` after its keyword. -/
def choice (parts : Parts) (line : Nat) : Reader Script := do
  let found ← next parts .word
  match found with
  | .word w _ =>
    expect parts .command "in"
    return .choose line w (← clauses parts (← get).size [])
  | _ => unexpected found (some (.word [] false))

/-- A compound command that was read, with the redirections after it. -/
def redirected (parts : Parts) (line : Nat) (body : Script) : Reader Script := do
  let found ← redirections parts (← get).size []
  if found.isEmpty then return body
  match body with
  | .subshell line inner _ => return .subshell line inner found
  | _ => return .redirected line body found

/-- One command. -/
def command (parts : Parts) (want : Want) : Reader Script := do
  let line := (← get).line
  let found ← next parts want
  let wrapped := redirected parts line
  match found with
  | .opening =>
    let body ← commands parts
    match ← next parts .word with
    | .closing => wrapped (.subshell line body [])
    | other => unexpected other (some .closing)
  | .keyword k =>
    match String.ofList k with
    | "\x7b" =>
      let body ← commands parts
      expect parts .keyword "\x7d"
      wrapped (.list [body])
    | "if" => wrapped (← branch parts (← get).size)
    | "while" | "until" =>
      let test ← commands parts
      expect parts .keyword "do"
      let body ← commands parts
      expect parts .keyword "done"
      wrapped (.loop (k = "until") test body)
    | "for" =>
      let loop ← eachWord parts line
      expect parts .keyword "done"
      wrapped loop
    | "case" => wrapped (← choice parts line)
    | _ => unexpected found none
  | .word _ _ | .redirect _ _ =>
    Reader.hold found
    simpleFrom parts ((← get).size + 2) (← get).line ⟨[], [], []⟩
  | _ => unexpected found none

-- ================================================ lists of commands

/-- The commands of a pipeline after the first. -/
def pipeFrom (parts : Parts) (fuel : Nat) (done : List Script) : Reader (List Script) := do
  match fuel with
  | 0 => return done.reverse
  | fuel + 1 =>
    match ← next parts .word with
    | .pipe => pipeFrom parts fuel ((← command parts .command) :: done)
    | other =>
      Reader.hold other
      return done.reverse

/-- Commands that feed one another. -/
def pipeline (parts : Parts) (want : Want) : Reader Script := do
  let found ← next parts want
  let negated := match found with
    | .keyword k => decide (k = "!")
    | _ => false
  if !negated then Reader.hold found
  let first ← command parts (if negated then .keyword else want)
  let body ← match ← pipeFrom parts (← get).size [first] with
    | [one] => pure one
    | all => pure (Script.pipe all)
  return if negated then .negate body else body

/-- The pipelines after the first in a chain. -/
def chainFrom (parts : Parts) (fuel : Nat) (done : List (Bool × Script)) :
    Reader (List (Bool × Script)) := do
  match fuel with
  | 0 => return done.reverse
  | fuel + 1 =>
    match ← next parts .word with
    | .both => chainFrom parts fuel ((true, ← pipeline parts .command) :: done)
    | .either => chainFrom parts fuel ((false, ← pipeline parts .command) :: done)
    | other =>
      Reader.hold other
      return done.reverse

/-- Pipelines of which one decides whether the next is run. -/
def chain (parts : Parts) (want : Want) : Reader Script := do
  let first ← pipeline parts want
  match ← chainFrom parts (← get).size [] with
  | [] => return first
  | rest => return .chain first rest

/-- The script that commands amount to, the last first. -/
def joined : List Script → Option Script
  | [] => none
  | [one] => some one
  | all => some (.list all.reverse)

/-- Reads on in a list of commands. -/
def listFrom (parts : Parts) (goal : Goal) (fuel : Nat) (done : List Script) :
    Reader (Option Script) := do
  match fuel with
  | 0 => return joined done
  | fuel + 1 =>
    let want : Want := { Want.command with newlines := goal ≠ .line }
    match ← next parts want with
    | .newline =>
      Lexing.readTexts (parts .any)
      return joined done
    | .eof =>
      Lexing.readTexts (parts .any)
      Reader.hold .eof
      return joined done
    | found =>
      Reader.hold found
      if found.endsList && goal ≠ .line && (goal = .any || !done.isEmpty) then return joined done
      let line := (← get).line
      let first ← chain parts want
      let stop ← next parts .word
      let first := match stop with
        | .ampersand => Script.background line first
        | _ => first
      let done := first :: done
      match stop with
      | .eof =>
        Lexing.readTexts (parts .any)
        Reader.hold .eof
        return joined done
      | .newline =>
        Reader.hold .newline
        listFrom parts goal fuel done
      | .ampersand | .semicolon => listFrom parts goal fuel done
      | other =>
        if goal = .line then unexpected other none
        Reader.hold other
        return joined done

/-- Reads a part of a script. -/
def read (parts : Parts) (goal : Goal) : Reader (Option Script) := do
  match goal with
  | .single => return some (← command parts .command)
  | _ => listFrom parts goal (← get).size []

end Grammar

/-- Reads a part of a script in which parts contain one another up to a depth. -/
def parse (depth : Nat) : Parts :=
  match depth with
  | 0 => fun _ => Reader.fault "too deep"
  | depth + 1 => fun goal => Grammar.read (parse depth) goal

namespace Source

/-- How deep the parts of a script may contain one another. -/
def deepest : Nat := 5000

/-- The next complete command, and what is ahead after it; nothing at the end of
the script, while an empty line has no command. -/
def command? (s : Source) : Except SyntaxFault (Option (Option Script) × Source) := do
  let (found, s) ← parse deepest .line { s with held := none, waiting := [] }
  match found, s.held with
  | none, some .eof => return (none, s)
  | _, _ => return (some found, s)

/-- The word that a text spells as if it stood in double quotes; nothing if it is
malformed. -/
def quotedWord? (text : Raw) : Option Word :=
  let whole : Waiting := ⟨0, ['\x00'], false, false⟩
  match (Lexing.readText (parse deepest .any) whole).run (ofRaw text [] 0) with
  | .ok (_, s) => s.texts.lookup 0
  | .error _ => none

end Source

end SiteScaffold.Shell

/-
The text of a script on its way to be read: what is ahead, with the number of its
line, and what was met on the way and is still open. A text that a redirection
reads stands on the lines after the command, so it is first noted as waiting and
gets a number, under which it is kept once it has been read.
-/
import SiteScaffold.Shell.Syntax

namespace SiteScaffold.Shell

/-- A redirection as far as its mark tells: to a file or channel, or from a text
in the script, with the tabs its lines start with or without. -/
inductive RedirectMark where
  | to (kind : RedirectKind)
  | here (withoutTabs : Bool)
  deriving Repr, DecidableEq

/-- A token of a script. -/
inductive Token where
  | eof
  | newline
  | semicolon
  | ampersand
  | both
  | either
  | pipe
  | opening
  | closing
  | endClause
  | redirect (channel : Nat) (mark : RedirectMark)
  | word (w : Word) (quoted : Bool)
  | keyword (k : Raw)

namespace Token

/-- The words that the grammar gives a meaning. -/
def keywords : List Raw :=
  ["!", "case", "do", "done", "elif", "else", "esac", "fi", "for", "if", "in", "then", "until",
    "while", "\x7b", "\x7d"]

/-- The keywords that end a list of commands. -/
def closers : List Raw := ["do", "done", "elif", "else", "esac", "fi", "then", "\x7d"]

/-- A token as complaints name it. -/
def name : Token → Raw
  | eof => "end of file"
  | newline => "newline"
  | semicolon => "\";\""
  | ampersand => "\"&\""
  | both => "\"&&\""
  | either => "\"||\""
  | pipe => "\"|\""
  | opening => "\"(\""
  | closing => "\")\""
  | endClause => "\";;\""
  | redirect _ _ => "redirection"
  | word _ _ => "word"
  | keyword k => '"' :: k ++ ['"']

/-- Whether the token ends a list of commands. -/
def endsList : Token → Bool
  | eof | closing | endClause => true
  | keyword k => k ∈ closers
  | _ => false

end Token

/-- What is wrong with a script, and in which line. -/
structure SyntaxFault where
  line : Nat
  message : Raw
  deriving Repr, DecidableEq

/-- A text in the script that is still to be read: its number, the line that ends
it, whether tabs are left out, and whether it is taken as it stands. -/
structure Waiting where
  number : Nat
  mark : Raw
  withoutTabs : Bool
  asItStands : Bool

/-- A script on its way to be read. `size` bounds the number of characters
ahead; a token may be held back to be read again. -/
structure Source where
  ahead : Raw
  line : Nat
  size : Nat
  held : Option Token
  waiting : List Waiting
  texts : List (Nat × Word)
  nextText : Nat
  aliases : List (Raw × Raw)
  /-- The aliases that are being read, each with the number of characters ahead
  when its reading ends. -/
  inUse : List (Raw × Nat)

/-- A part of a script is read, or found malformed. -/
abbrev Reader := StateT Source (Except SyntaxFault)

namespace Reader

/-- Finds a fault at this line. -/
def fault {α : Type} (message : Raw) : Reader α := do
  throw ⟨(← get).line, message⟩

/-- The next character. -/
def next : Reader (Option Char) := fun s =>
  match s.ahead with
  | [] => .ok (none, s)
  | c :: ahead => .ok (some c, { s with ahead })

/-- Goes to the next line. -/
def countLine : Reader Unit := modify fun s => { s with line := s.line + 1 }

/-- What is ahead without continued lines at its front, and how many there
were. -/
def joined (lines : Nat) : Raw → Raw × Nat
  | '\\' :: '\n' :: rest => joined (lines + 1) rest
  | ahead => (ahead, lines)

/-- The next character after continued lines. -/
def nextJoined : Reader (Option Char) := fun s =>
  match s.ahead with
  | '\\' :: '\n' :: rest =>
    let (ahead, lines) := joined 1 rest
    next { s with ahead, line := s.line + lines }
  | _ => next s

/-- Puts a character back. -/
def putBack (c : Option Char) : Reader Unit :=
  match c with
  | some c => modify fun s => { s with ahead := c :: s.ahead }
  | none => pure ()

/-- Holds a token back, to be read again. -/
def hold (token : Token) : Reader Unit := modify fun s => { s with held := some token }

end Reader

namespace Source

/-- A script before it is read. -/
def ofRaw (ahead : Raw) (aliases : List (Raw × Raw)) (nextText : Nat) : Source :=
  { ahead, line := 1, size := ahead.length + 2, held := none, waiting := [], texts := [], nextText,
    aliases, inUse := [] }

end Source

end SiteScaffold.Shell

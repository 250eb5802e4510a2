/-
The character classes and small phrases that the program's patterns share.
-/
import SiteScaffold.Pattern.Search

namespace SiteScaffold.Pattern

/-- A space or tab. -/
def isSpacing (c : Char) : Bool := c = ' ' || c = '\t'

/-- A quotation mark, single or double. -/
def isQuote (c : Char) : Bool := c = '"' || c = '\''

/-- Any character but a newline. -/
def inLine (c : Char) : Bool := c ≠ '\n'

/-- Any character. -/
def anything (_ : Char) : Bool := true

/-- A possibly empty run of spaces and tabs. -/
def spacing : Pattern := many isSpacing

/-- White space that has to be there. -/
def gap : Pattern := oneOrMore Text.isBlank

/-- White space that may be there. -/
def slack : Pattern := many Text.isBlank

/-- A quotation mark. -/
def quote : Pattern := one isQuote

/-- A text between quotation marks, which need not be of one kind. -/
def quoted (t : Text) : Pattern := quote ++ literal t ++ quote

/-- A newline, after a carriage return or not. -/
def newline : Pattern := optional "\r" ++ "\n"

/-- The end of a line's content: its newline or the end of the text. -/
def lineBreak : Pattern := "\n" ||| textEnd

/-- The end of a line's content, and with a newline the blank line that
follows it, if one does. -/
def lineBreakAndBlank : Pattern := ("\n" ++ optional (spacing ++ newline)) ||| textEnd

end SiteScaffold.Pattern

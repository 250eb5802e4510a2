/-
Names of pages, controllers and layouts. What an operator types is normalised
to a token over lower-case ASCII letters, digits and the underscore, which is
fit for a file name, a route and a method name alike; the other functions
derive from it what is shown to a reader or written into markup.
-/
import SiteScaffold.Text.Case

namespace SiteScaffold.Name

-- ===================================================== normal form

/-- Letters written as their closest ASCII letter, in both cases. -/
def foldings : List (Char × Char) :=
  [('ç', 'c'), ('Ç', 'c'), ('ğ', 'g'), ('Ğ', 'g'), ('ı', 'i'), ('İ', 'i'),
   ('ö', 'o'), ('Ö', 'o'), ('ş', 's'), ('Ş', 's'), ('ü', 'u'), ('Ü', 'u')]

/-- The ASCII letter a letter is folded to, if it is one of those. -/
def fold? (c : Char) : Option Char := foldings.lookup c

/-- The characters a normalised name is made of. -/
def isNameChar (c : Char) : Bool := c.isLower || c.isDigit || c = '_'

/-- What one character becomes in a normalised name. -/
def normalizeChar (c : Char) : Text :=
  match fold? c with
  | some letter => [letter]
  | none => (Text.lower c).map fun l => if isNameChar l then l else (fold? l).getD '_'

/-- The normalised form of a name, character by character. -/
def normalize (raw : Text) : Text := raw.flatMap normalizeChar

-- ===================================================== other forms

/-- The name with its first character in upper case and the rest in lower
case. -/
def capitalize : Text → Text
  | [] => []
  | c :: rest => Text.upper c ++ rest.flatMap Text.lower

/-- Whether a word starts at the upper-case letter `c`, given its
neighbours. -/
def startsWord (before c : Char) (next : Option Char) : Bool :=
  c.isUpper
    && (before.isLower || before.isDigit || (before.isUpper && next.any Char.isLower))

/-- The rest of a camel-case identifier after `before`, with a space before
each word. -/
def splitAfter (before : Char) : Text → Text
  | [] => []
  | c :: rest =>
    if startsWord before c rest.head? then ' ' :: c :: splitAfter c rest
    else c :: splitAfter c rest

/-- A camel-case identifier with a space before each word but the first. -/
def splitCamelCase : Text → Text
  | [] => []
  | c :: rest => c :: splitAfter c rest

/-- The identifier markup uses for a controller: dashes for underscores. -/
def stimulusIdentifier (name : Text) : Text :=
  name.map fun c => if c = '_' then '-' else c

end SiteScaffold.Name

/-
Patterns of names, which scripts also match words against. A character of a
pattern has no meaning of its own if it is quoted or stands after a backslash.

Whether a pattern matches is read off a row of answers, one for each place of the
text, that is brought through the pattern step by step; the work is the length of
the text times that of the pattern.
-/
import SiteScaffold.Shell.Raw

namespace SiteScaffold.Shell

/-- What a class of characters is made of. -/
inductive ClassItem where
  | range (first last : Char)
  | named (test : Char → Bool)

/-- A step of a pattern. -/
inductive GlobStep where
  | exactly (c : Char)
  | anyChar
  | anyText
  | oneOf (negated : Bool) (items : List ClassItem)

/-- A pattern of names. -/
abbrev Glob := List GlobStep

namespace Glob

/-- A character of a word, and whether it may have a meaning in a pattern. -/
abbrev Marked := Char × Bool

/-- A character that prints something. -/
def isGraphic (c : Char) : Bool := '!' ≤ c && c ≤ '~'

/-- The classes that have a name. -/
def named : List (Raw × (Char → Bool)) :=
  [ ("alnum", Char.isAlphanum), ("alpha", Char.isAlpha), ("digit", Char.isDigit),
    ("upper", Char.isUpper), ("lower", Char.isLower), ("space", Raw.isBlank),
    ("blank", fun c => c = ' ' || c = '\t'),
    ("punct", fun c => isGraphic c && !c.isAlphanum),
    ("print", fun c => isGraphic c || c = ' '), ("graph", isGraphic),
    ("cntrl", fun c => c < ' ' || c = '\x7f'),
    ("xdigit", fun c => c.isDigit || ('a' ≤ c && c ≤ 'f') || ('A' ≤ c && c ≤ 'F')) ]

/-- The named class that a text starts with after a bracket, and what follows
it. -/
def named? (t : List Marked) : Option (ClassItem × List Marked) :=
  named.findSome? fun (name, test) =>
    let spelled : Raw := [':'] ++ name ++ [':', ']']
    if (t.take spelled.length).map (·.1) = spelled then
      some (.named test, t.drop spelled.length)
    else none

/-- The items of a class up to its closing bracket, and what follows; a bracket
that comes first does not close it. -/
def items? (fuel : Nat) (first : Bool) (done : List ClassItem) (t : List Marked) :
    Option (List ClassItem × List Marked) :=
  match fuel, t with
  | 0, _ | _, [] => none
  | fuel + 1, (c, active) :: rest =>
    if c = ']' && active && !first then some (done, rest)
    else
      match if c = '[' && active then named? rest else none with
      | some (item, rest) => items? fuel false (item :: done) rest
      | none =>
        let (c, rest) := match c, active, rest with
          | '\\', true, (d, _) :: rest => (d, rest)
          | _, _, _ => (c, rest)
        match rest with
        | ('-', true) :: (d, false) :: rest => items? fuel false (.range c d :: done) rest
        | ('-', true) :: ('\\', true) :: (d, _) :: rest =>
          items? fuel false (.range c d :: done) rest
        | ('-', true) :: (d, true) :: after =>
          if d = ']' then items? fuel false (.range c c :: done) rest
          else items? fuel false (.range c d :: done) after
        | _ => items? fuel false (.range c c :: done) rest

/-- The class that opens a text, after its bracket. -/
def class? (t : List Marked) : Option (GlobStep × List Marked) :=
  let (negated, t) := match t with
    | ('!', true) :: rest => (true, rest)
    | _ => (false, t)
  (items? (t.length + 1) true [] t).map fun (items, rest) => (.oneOf negated items, rest)

/-- The pattern that marked characters spell out, after the steps in `done`. -/
def ofMarkedFrom (fuel : Nat) (done : Glob) (t : List Marked) : Glob :=
  match fuel, t with
  | 0, _ | _, [] => done.reverse
  | fuel + 1, (c, active) :: rest =>
    if active && c = '*' then ofMarkedFrom fuel (.anyText :: done) rest
    else if active && c = '?' then ofMarkedFrom fuel (.anyChar :: done) rest
    else if active && c = '[' then
      match class? rest with
      | some (step, rest) => ofMarkedFrom fuel (step :: done) rest
      | none => ofMarkedFrom fuel (.exactly c :: done) rest
    else if active && c = '\\' then
      match rest with
      | (d, _) :: rest => ofMarkedFrom fuel (.exactly d :: done) rest
      | [] => ofMarkedFrom fuel (.exactly c :: done) []
    else ofMarkedFrom fuel (.exactly c :: done) rest

/-- The pattern that marked characters spell out. -/
def ofMarked (t : List Marked) : Glob := ofMarkedFrom t.length [] t

/-- The text that marked characters name if they are no pattern. -/
def unescaped : List Marked → Raw
  | ('\\', true) :: (c, _) :: rest => c :: unescaped rest
  | (c, _) :: rest => c :: unescaped rest
  | [] => []

/-- Whether marked characters may hold a pattern that is more than a text. -/
def isPattern (t : List Marked) : Bool := t.any fun (c, active) => active && c ∈ ['*', '?', '[']

/-- Whether a step matches a character. -/
def GlobStep.matches (step : GlobStep) (c : Char) : Bool :=
  match step with
  | .exactly d => c = d
  | .anyChar => true
  | .anyText => true
  | .oneOf negated items =>
    (items.any fun
      | .range first last => first ≤ c && c ≤ last
      | .named test => test c) != negated

/-- For each place of a text, whether the steps match all that follows it. -/
def fromEach (glob : Glob) (t : Raw) : List Bool :=
  glob.foldr (fun step after =>
    match step with
    | .anyText => after.foldr (fun here done => (here || done.head?.getD false) :: done) []
    | _ => List.zipWith (fun c after => GlobStep.matches step c && after) t (after.drop 1) ++ [false])
    (List.replicate t.length false ++ [true])

/-- For each place of a text, whether the steps match all that precedes it. -/
def upToEach (glob : Glob) (t : Raw) : List Bool :=
  glob.foldl (fun before step =>
    match step with
    | .anyText =>
      (before.foldl (fun done here => (here || done.head?.getD false) :: done) []).reverse
    | _ => false :: List.zipWith (fun c before => GlobStep.matches step c && before) t before)
    (true :: List.replicate t.length false)

/-- Whether the pattern matches the whole text. -/
def accepts (glob : Glob) (t : Raw) : Bool := (glob.fromEach t).head?.getD false

/-- The last index at which a row holds. -/
def lastTrue? (row : List Bool) : Option Nat :=
  (row.reverse.findIdx? id).map (row.length - 1 - ·)

/-- The text without the shortest or longest start that the pattern matches. -/
def dropStart (glob : Glob) (longest : Bool) (t : Raw) : Raw :=
  let row := glob.upToEach t
  t.drop ((if longest then lastTrue? row else row.findIdx? id).getD 0)

/-- The text without the shortest or longest end that the pattern matches. -/
def dropEnd (glob : Glob) (longest : Bool) (t : Raw) : Raw :=
  let row := glob.fromEach t
  t.take ((if longest then row.findIdx? id else lastTrue? row).getD t.length)

end Glob

end SiteScaffold.Shell

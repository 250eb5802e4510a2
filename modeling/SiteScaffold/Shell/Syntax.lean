/-
Scripts of the command shell. Tools come as such scripts, and to run them where
no processes are at hand they are read into the trees of this module.
-/
import SiteScaffold.Shell.Raw

namespace SiteScaffold.Shell

/-- What stands after the name of a parameter in braces. The operators that look
at a value take a colon, which makes an empty value count as none. -/
inductive Operator where
  | plain
  | length
  | minus
  | plus
  | assign
  | question
  | trimStart (longest : Bool)
  | trimEnd (longest : Bool)
  /-- An operator that there is not. -/
  | unknown
  deriving Repr, DecidableEq

/-- What a redirection does to a channel. -/
inductive RedirectKind where
  | write
  /-- Like `write`, whether or not files may be replaced. -/
  | overwrite
  | append
  | read
  | readWrite
  | duplicate
  deriving Repr, DecidableEq

mutual

/-- A part of a word. What is quoted is neither split nor taken as a pattern. -/
inductive Part where
  | char (c : Char) (quoted : Bool)
  /-- A quotation mark. -/
  | mark
  /-- The value of a parameter. -/
  | param (name : Raw) (operator : Operator) (colon : Bool) (argument : List Part)
      (quoted : Bool)
  /-- The output of commands. -/
  | output (body : Option Script) (quoted : Bool)
  /-- The value of an arithmetic expression. -/
  | number (expression : List Part) (quoted : Bool)

/-- A redirection of a channel: to a file or another channel, or from a text in
the script, which has a number. -/
inductive Redirect where
  | to (channel : Nat) (kind : RedirectKind) (target : List Part)
  | here (channel : Nat) (number : Nat)

/-- A script. -/
inductive Script where
  /-- A simple command, on a line: assignments, words and redirections. -/
  | simple (line : Nat) (assignments : List (List Part)) (words : List (List Part))
      (redirects : List Redirect)
  /-- Commands one after the other. -/
  | list (commands : List Script)
  /-- Commands of which each runs only if those before it came out as asked:
  well if the mark is true. -/
  | chain (first : Script) (rest : List (Bool × Script))
  | negate (body : Script)
  /-- Commands of which each reads what the one before it writes. -/
  | pipe (commands : List Script)
  | subshell (line : Nat) (body : Script) (redirects : List Redirect)
  | background (line : Nat) (body : Script)
  | redirected (line : Nat) (body : Script) (redirects : List Redirect)
  | branch (test yes : Script) (no : Option Script)
  | loop (untilTrue : Bool) (test body : Script)
  | each (line : Nat) (name : Raw) (words : List (List Part)) (body : Script)
  | choose (line : Nat) (word : List Part) (clauses : List (List (List Part) × Option Script))
  | define (line : Nat) (name : Raw) (body : Script)

end

/-- A word: its parts, one after the other. -/
abbrev Word := List Part

/-- The text of a word that has no parts to be filled in and no quotes. -/
def plainText? : Word → Option Raw
  | [] => some []
  | .char c false :: rest => (plainText? rest).map (c :: ·)
  | _ => none

end SiteScaffold.Shell

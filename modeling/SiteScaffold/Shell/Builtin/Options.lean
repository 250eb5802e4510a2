/-
The options of commands, which are letters after a dash, and the options of the
shell itself.
-/
import SiteScaffold.Shell.State

namespace SiteScaffold.Shell

namespace Builtin

/-- Quotation marks around a text, as the shell would need them to read it. -/
def quoted (t : Raw) : Raw :=
  let runs := fun (t : Raw) =>
    t.foldr (fun c (pieces : List (Bool × Raw)) =>
      match pieces with
      | (isMark, piece) :: more =>
        if isMark = decide (c = '\'') then (isMark, c :: piece) :: more
        else (decide (c = '\''), [c]) :: pieces
      | [] => [(decide (c = '\''), [c])]) []
  if t = [] then "''"
  else
    let pieces := runs t
    let body := pieces.flatMap fun (isMark, piece) =>
      if isMark then ['"'] ++ piece ++ ['"'] else ['\''] ++ piece ++ ['\'']
    if t.head? = some '\'' then '\'' :: '\'' :: body else body

/-- The letters at the front of a command's arguments, and the other arguments,
after the letters in `done` and in a word that has been started on. A letter that
is followed by a colon in `allowed` takes a word, and each letter comes with its
word; at most `fuel` steps are taken. -/
def letters (allowed : Raw) (fuel : Nat) (done : List (Char × Raw)) (word : Raw)
    (args : List Raw) : Task (List (Char × Raw) × List Raw) := do
  match fuel, word, args with
  | fuel + 1, [], ('-' :: c :: more) :: rest =>
    if c = '-' && more = [] then return (done.reverse, rest)
    letters allowed fuel done (c :: more) rest
  | fuel + 1, c :: more, _ =>
    match allowed.dropWhile (· ≠ c) with
    | [] => Task.refuse ("Illegal option -" ++ [c])
    | _ :: ':' :: _ =>
      match more, args with
      | [], [] => Task.refuse ("No arg for -" ++ [c] ++ " option")
      | [], value :: rest => letters allowed fuel ((c, value) :: done) [] rest
      | _, _ => letters allowed fuel ((c, more) :: done) [] args
    | _ => letters allowed fuel ((c, []) :: done) more args
  | _, _, _ => return (done.reverse, args)

/-- The number of characters and words. -/
def extent (args : List Raw) : Nat := args.foldl (fun n word => n + word.length + 1) 1

/-- The letters and the other arguments of a command. -/
def options (allowed : Raw) (args : List Raw) : Task (List (Char × Raw) × List Raw) :=
  letters allowed (extent args) [] [] args

-- ============================================== options of the shell

/-- Sets an option of the shell or takes it back. -/
def setOption (letter : Char) (on : Bool) : Task Unit := do
  if !(optionNames.any (·.2 = letter)) || letter < ' ' then
    Task.refuse ("Illegal option -" ++ [letter])
  let drop := fun (options : Raw) (letter : Char) => options.filter (· ≠ letter)
  Task.changeOwn fun p =>
    let options := drop p.options letter
    let options := if on && letter = 'V' then drop options 'E' else options
    let options := if on && letter = 'E' then drop options 'V' else options
    { p with options := if on then letter :: options else options }

/-- Sets an option by its name. -/
def setNamed (name : Raw) (on : Bool) : Task Unit := do
  match optionNames.lookup name with
  | none => Task.refuse ("Illegal option -o " ++ name)
  | some letter =>
    if letter < ' ' then return
    setOption letter on

/-- Lists the options, for people or as commands. -/
def listOptions (forPeople : Bool) : Task Unit := do
  let p ← Task.own
  if forPeople then Task.sayLine "Current option settings"
  optionNames.forM fun (name, letter) => do
    let on := p.options.contains letter
    if forPeople then
      Task.sayLine (name ++ List.replicate (16 - name.length) ' ' ++ (if on then "on" else "off"))
    else Task.sayLine ("set " ++ (if on then "-o " else "+o ") ++ name)

/-- How the options at the front of arguments end: where the other arguments
start, or at a mark that stands for them. -/
inductive OptionEnd where
  | plain
  | dash
  | marked
  deriving DecidableEq

/-- Sets the options at the front of arguments, after a word that has been started
on; answers the letters that only a new shell takes, and the other arguments. At
most `fuel` steps are taken. -/
def shellOptions (starting : Bool) (fuel : Nat) (found : Raw) (on : Bool) (word : Raw)
    (args : List Raw) : Task (Raw × OptionEnd × List Raw) := do
  match fuel, word, args with
  | fuel + 1, [], word :: rest =>
    match word with
    | ['-'] => return (found, .dash, rest)
    | ['-', '-'] => return (found, .marked, rest)
    | '-' :: word => shellOptions starting fuel found true word rest
    | '+' :: word => shellOptions starting fuel found false word rest
    | _ => return (found, .plain, args)
  | fuel + 1, c :: word, _ =>
    if starting && (c = 'c' || c = 'l') then shellOptions starting fuel (c :: found) on word args
    else if c = 'o' then
      match args with
      | [] => listOptions on
      | name :: _ => setNamed name on
      shellOptions starting fuel found on word args.tail
    else
      setOption c on
      shellOptions starting fuel found on word args
  | _, _, _ => return (found, .plain, args)

end Builtin

end SiteScaffold.Shell

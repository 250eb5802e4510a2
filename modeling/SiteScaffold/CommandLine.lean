/-
The command line: a verb with its arguments, and options in front of it or
behind it. Arguments are read from the left, and the first that is out of place
decides, unless help was asked for before.
-/
import SiteScaffold.Command.Perform

namespace SiteScaffold.CommandLine

/-- What a verb was given. -/
structure Given where
  name : Option Text := none
  switched : Bool := false
  value : Option Text := none
  assumeYes : Bool := false

/-- A verb: its names, whether it takes a name, the switch and the option it
may take, and the command it stands for. -/
structure Verb where
  names : List Text
  takesName : Bool
  switch : Option Text
  option : Option Text
  command : Given → Command

/-- What a command line comes to. -/
inductive Parsed where
  | request (command : Command) (assumeYes : Bool)
  | help
  /-- Help because nothing was asked for. -/
  | bareHelp
  | version
  | malformed
  deriving Repr, DecidableEq

/-- A verb that takes a name. -/
def named (names : List Text) (command : Text → Command) : Verb :=
  ⟨names, true, none, none, fun given => command (given.name.getD [])⟩

/-- The verbs. -/
def verbs : List Verb :=
  [ ⟨["new", "n"], true, some "clean", none,
      fun given => .new (given.name.getD []) given.switched⟩,
    named ["add-page", "ap"] .addPage,
    named ["remove-page", "rp"] .removePage,
    named ["add-stimulus", "as"] .addStimulus,
    named ["remove-stimulus", "rs"] .removeStimulus,
    ⟨["add-layout", "al"], true, none, some "view",
      fun given => .addLayout (given.name.getD []) given.value⟩,
    named ["remove-layout", "rl"] .removeLayout,
    named ["add-pin", "pin"] .addPin,
    named ["remove-pin", "unpin"] .removePin,
    ⟨["run", "r"], false, none, none, fun _ => .run⟩,
    ⟨["build", "b"], false, some "zip", none, fun given => .build given.switched⟩,
    ⟨["version"], false, none, none, fun _ => .version⟩ ]

/-- The verb with a name. -/
def verb? (name : Text) : Option Verb := verbs.find? (name ∈ ·.names)

-- ====================================================== single options

/-- What short options after one dash come to. -/
inductive Cluster where
  | yes
  | help
  | version
  | malformed
  deriving DecidableEq

/-- Short options after one dash, read from the left. The wish for yes may be
stated once, and the version may be asked for where `atTop` says so. -/
def cluster (atTop : Bool) (assumeYes : Bool) : Text → Cluster
  | [] => .yes
  | c :: rest =>
    if c = 'y' then if assumeYes then .malformed else cluster atTop true rest
    else if c = 'h' then .help
    else if c = 'V' && atTop then .version
    else .malformed

/-- Whether a token is an option and not a value. -/
def isOption (token : Text) : Bool := token.head? = some '-' && token ≠ ['-']

-- ============================================================ reading

/-- The end of a verb's arguments. -/
def Verb.finish (verb : Verb) (given : Given) (assumeYes : Bool) : Parsed :=
  if verb.takesName && given.name.isNone then .malformed
  else .request (verb.command given) (assumeYes || given.assumeYes)

/-- The name that a verb takes; it takes one, which must not be empty. -/
def Verb.takeName? (verb : Verb) (given : Given) (token : Text) : Option Given :=
  if verb.takesName && given.name.isNone && token ≠ [] then
    some { given with name := some token }
  else none

/-- The arguments of a verb after the mark that ends options. -/
def Verb.operands (verb : Verb) (assumeYes : Bool) (given : Given) : List Text → Parsed
  | [] => verb.finish given assumeYes
  | token :: rest =>
    match verb.takeName? given token with
    | some given => verb.operands assumeYes given rest
    | none => .malformed

/-- The arguments of a verb; `assumeYes` tells what was said before it, and
`awaiting` whether the option's value has to come next. -/
def Verb.args (verb : Verb) (assumeYes awaiting : Bool) (given : Given) : List Text → Parsed
  | [] => if awaiting then .malformed else verb.finish given assumeYes
  | token :: rest =>
    if awaiting then
      if token = [] || isOption token then .malformed
      else verb.args assumeYes false { given with value := some token } rest
    else
      match token with
      | ['-', '-'] => verb.operands assumeYes given rest
      | '-' :: '-' :: long =>
        let key := long.takeWhile (· ≠ '=')
        let attached := (Text.cut? "=" long).map (·.2)
        if attached.isNone && long = "yes" then
          if given.assumeYes then .malformed
          else verb.args assumeYes false { given with assumeYes := true } rest
        else if attached.isNone && long = "help" then .help
        else if attached.isNone && verb.switch = some long then
          if given.switched then .malformed
          else verb.args assumeYes false { given with switched := true } rest
        else if verb.option = some key && given.value.isNone then
          match attached with
          | some [] => .malformed
          | some value => verb.args assumeYes false { given with value := some value } rest
          | none => verb.args assumeYes true given rest
        else .malformed
      | '-' :: c :: short =>
        match cluster false given.assumeYes (c :: short) with
        | .yes => verb.args assumeYes false { given with assumeYes := true } rest
        | .help => .help
        | _ => .malformed
      | _ =>
        match verb.takeName? given token with
        | some given => verb.args assumeYes false given rest
        | none => .malformed

/-- What asking for help on verbs comes to: there has to be a single one, and it
has to exist. -/
def helpOn : List Text → Parsed
  | [] => .help
  | [name] => if (verb? name).isSome || name = "help" then .help else .malformed
  | _ => .malformed

/-- A command line; `assumeYes` tells what was said so far. -/
def parseFrom (assumeYes : Bool) : List Text → Parsed
  | [] => if assumeYes then .malformed else .bareHelp
  | token :: rest =>
    match token with
    | ['-', '-'] =>
      if rest ≠ [] then .malformed else if assumeYes then .malformed else .bareHelp
    | '-' :: '-' :: long =>
      if long = "yes" then if assumeYes then .malformed else parseFrom true rest
      else if long = "help" then .help
      else if long = "version" then .version
      else .malformed
    | '-' :: c :: short =>
      match cluster true assumeYes (c :: short) with
      | .yes => parseFrom true rest
      | .help => .help
      | .version => .version
      | .malformed => .malformed
    | _ =>
      if token = "help" then helpOn rest
      else
        match verb? token with
        | some verb => verb.args assumeYes false {} rest
        | none => .malformed

/-- What a command line comes to. -/
def parse (args : List Text) : Parsed := parseFrom false args

-- ========================================================= the program

/-- The product that the command line belongs to. -/
def product : Product where
  name := "rails-frontend"
  displayName := "Rails Frontend"
  version := "1.0.4"
  docs := "https://github.com/rails-frontend/rails-frontend-cli#readme"
  settingsFile := ".rails-frontend.yaml"
  nextSteps folder :=
    ["cd " ++ folder, "rails-frontend run", "rails-frontend add-page about"]

/-- What a run of the program comes to: its exit code unless it was killed, whether
it shows help, what it prints, and the failure it reports. -/
structure Result where
  code : Option Nat
  help : Bool
  stdout : Text
  failure : Option Failure

/-- Runs the program in a folder, without a terminal. -/
def run (launcher : Launcher) (folder : Text) (args : List Text) (disk : Disk) : Result × Disk :=
  match parse args with
  | .help => (⟨some 0, true, [], none⟩, disk)
  | .bareHelp => (⟨some 0, false, [], none⟩, disk)
  | .version => (⟨some 0, false, product.name ++ " " ++ product.version ++ "\n", none⟩, disk)
  | .malformed => (⟨some 1, false, [], none⟩, disk)
  | .request command assumeYes =>
    let setting : Setting := ⟨launcher, folder, product⟩
    let (outcome, session) :=
      (Command.perform ⟨command, folder, assumeYes⟩).on setting (Session.start disk none)
    match outcome with
    | .ok (.replaced ending) =>
      let stdout := session.stdout ++ Utf8.decodeLenient ending.stdout
      (⟨ending.code, false, stdout, none⟩, session.disk)
    | .ok _ => (⟨some 0, false, session.stdout, none⟩, session.disk)
    | .error failure => (⟨some 1, false, session.stdout, some failure⟩, session.disk)

end SiteScaffold.CommandLine

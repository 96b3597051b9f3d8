import Keymap.Category

/-!
The arguments of the command line. An option may stand before or behind the name of the subcommand,
in a long form with its value behind an equals sign or in the next argument, or in a short form, of
which several can be drawn together behind one hyphen. Arguments are taken in one by one, and the
first one that cannot be taken in ends the reading.
-/
namespace Keymap.Command

inductive Subcommand where
  | check
  | list
  | test
  | init
  deriving DecidableEq

def Subcommand.words : List (String × Subcommand) :=
  [("check", .check), ("list", .list), ("test", .test), ("init", .init)]

/-- Options that stand alone. -/
inductive Flag where
  | version
  | verbose
  | json
  | force
  deriving DecidableEq

/-- Options that take a value. -/
inductive Valued where
  | config
  | category
  /-- A pattern that overrides those of the file. -/
  | override (c : Category)
  deriving DecidableEq

abbrev Opt := Flag ⊕ Valued

/-- The options with a long name on the level of a command, or on the outermost level. -/
def longOption? (command? : Option Subcommand) (name : Text) : Option Opt :=
  let words : List (String × Opt) :=
    [("config", .inr .config), ("verbose", .inl .verbose),
     ("commit-completion", .inr (.override .commitCompletion)),
     ("trigger-completion-list", .inr (.override .triggerCompletionList)),
     ("insert-newline", .inr (.override .insertNewline)),
     ("submit-input", .inr (.override .submitInput))]
  let own : List (String × Opt) :=
    match command? with
    | none => [("version", .inl .version)]
    | some .check => []
    | some .list => [("json", .inl .json)]
    | some .test => [("category", .inr .category)]
    | some .init => [("force", .inl .force)]
  Text.lookup (words ++ own) name

/-- The options with a letter on the level of a command, or on the outermost level. -/
def shortOption? (command? : Option Subcommand) (letter : Char) : Option Opt :=
  match letter, command? with
  | 'c', _ => some (.inr .config)
  | 'v', _ => some (.inl .verbose)
  | 'V', none => some (.inl .version)
  | 'k', some .test => some (.inr .category)
  | _, _ => none

inductive UsageError where
  | unknownOption (argument : Text)
  | unknownCommand (argument : Text)
  | unexpectedArgument (argument : Text)
  | unexpectedValue (argument : Text)
  | missingValue
  | repeatedOption
  | invalidCategory (name : Text)
  | missingCommand
  | missingKey
  deriving DecidableEq

def UsageError.message : UsageError → Text
  | .unknownOption a => "unknown option '".toList ++ a ++ "'".toList
  | .unknownCommand a => "unknown command '".toList ++ a ++ "'".toList
  | .unexpectedArgument a => "unexpected argument '".toList ++ a ++ "'".toList
  | .unexpectedValue a => "unexpected value in '".toList ++ a ++ "'".toList
  | .missingValue => "an option lacks its value".toList
  | .repeatedOption => "an option is given more than once".toList
  | .invalidCategory name => "unknown binding category '".toList ++ name ++ "'".toList
  | .missingCommand => "no command given".toList
  | .missingKey => "no key press given".toList

/-- What the arguments of one level say. -/
structure Level where
  config? : Option Text := none
  overrides : Config := Config.empty
  category? : Option Category := none
  json : Bool := false
  force : Bool := false
  keys : List Text := []

namespace Level

/-- Takes in an option that stands alone. The one for verbosity, which concerns the log alone, may
be given more than once. -/
def setFlag (level : Level) : Flag → Except UsageError Level
  | .version | .verbose => .ok level
  | .json => if level.json then .error .repeatedOption else .ok { level with json := true }
  | .force => if level.force then .error .repeatedOption else .ok { level with force := true }

/-- Takes in an option with its value. Only overrides may be given more than once. -/
def setValue (level : Level) (option : Valued) (value : Text) : Except UsageError Level :=
  match option with
  | .config =>
    if level.config?.isSome then .error .repeatedOption
    else .ok { level with config? := some value }
  | .category =>
    if level.category?.isSome then .error .repeatedOption
    else
      match Category.ofName? value with
      | some c => .ok { level with category? := some c }
      | none => .error (.invalidCategory value)
  | .override c => .ok { level with overrides := level.overrides.push c value }

end Level

/-- The state of the reading. -/
structure State where
  /-- The command, once it has been named. -/
  command? : Option Subcommand := none
  /-- What was said before the name of the command. -/
  outer : Level := {}
  /-- What has been said on the present level. -/
  level : Level := {}
  /-- The option whose value is the next argument. -/
  waiting? : Option Valued := none
  /-- Whether options are over. -/
  onlyKeys : Bool := false

inductive Action where
  | check
  | list (json : Bool)
  | test (category? : Option Category) (keys : List Text)
  | init (force : Bool)
  deriving DecidableEq

/-- A request to do something with a configuration file. -/
structure Request where
  config? : Option Text := none
  overrides : Config := Config.empty
  action : Action

inductive Invocation where
  | version
  | request (request : Request)

namespace State

def give (s : State) (option : Valued) (value : Text) : Except UsageError State := do
  return { s with level := ← s.level.setValue option value, waiting? := none }

/-- A long option, its name cut off from the value behind the equals sign. Nothing means that the
version is asked for, which ends the reading. -/
def takeLong (s : State) (argument : Text) : Except UsageError (Option State) :=
  let name := argument.takeWhile (· != '=')
  match longOption? s.command? name, argument.dropWhile (· != '=') with
  | none, _ => .error (.unknownOption argument)
  | some (.inl .version), [] => .ok none
  | some (.inl flag), [] => do return some { s with level := ← s.level.setFlag flag }
  | some (.inl _), _ :: _ => .error (.unexpectedValue argument)
  | some (.inr option), [] => .ok (some { s with waiting? := some option })
  | some (.inr option), _ :: value => do return some (← s.give option value)

/-- The letters behind a hyphen. The first option that takes a value takes the rest of the letters
for it, without an equals sign in front. -/
def takeShort (s : State) : Text → Except UsageError (Option State)
  | [] => .ok (some s)
  | letter :: rest =>
    match shortOption? s.command? letter, rest with
    | none, _ => .error (.unknownOption [letter])
    | some (.inl .version), _ => .ok none
    | some (.inl flag), _ => do
      takeShort { s with level := ← s.level.setFlag flag } rest
    | some (.inr option), [] => .ok (some { s with waiting? := some option })
    | some (.inr option), '=' :: value => do return some (← s.give option value)
    | some (.inr option), value => do return some (← s.give option value)

/-- An argument that is no option: a key press, where the command takes some. -/
def takeKey (s : State) (argument : Text) : Except UsageError State :=
  match s.command? with
  | none => .error (.unknownCommand argument)
  | some .test => .ok { s with level := { s.level with keys := s.level.keys ++ [argument] } }
  | some _ => .error (.unexpectedArgument argument)

/-- A hyphen with something behind it. A single hyphen is no option but a value like any other. -/
def isOption : Text → Bool
  | '-' :: _ :: _ => true
  | _ => false

/-- Takes in the next argument. -/
def take (s : State) (argument : Text) : Except UsageError (Option State) :=
  if s.onlyKeys then do return some (← s.takeKey argument)
  else
    match s.waiting? with
    | some option =>
      if isOption argument then .error .missingValue else do return some (← s.give option argument)
    | none =>
      match s.command?, Text.lookup Subcommand.words argument, argument with
      | none, some command, _ =>
        .ok (some { s with command? := some command, outer := s.level, level := {} })
      | _, _, ['-', '-'] => .ok (some { s with onlyKeys := true })
      | _, _, '-' :: '-' :: long => s.takeLong long
      | _, _, '-' :: letter :: letters => s.takeShort (letter :: letters)
      | _, _, _ => do return some (← s.takeKey argument)

/-- The request of the whole line. What is said behind the name of the command takes the place of
what was said before it. -/
def request (s : State) : Except UsageError Request :=
  if s.waiting?.isSome then .error .missingValue
  else
    let action : Except UsageError Action :=
      match s.command? with
      | none => .error .missingCommand
      | some .check => .ok .check
      | some .list => .ok (.list s.level.json)
      | some .test =>
        if s.level.keys.isEmpty then .error .missingKey
        else .ok (.test s.level.category? s.level.keys)
      | some .init => .ok (.init s.level.force)
    action.map fun action =>
      { config? := s.level.config? <|> s.outer.config?
        overrides := s.outer.overrides.override s.level.overrides
        action }

/-- Takes in all arguments. -/
def takeAll (s : State) : List Text → Except UsageError Invocation
  | [] => s.request.map .request
  | argument :: rest => do
    match ← s.take argument with
    | none => return .version
    | some next => takeAll next rest

end State

/-- What a list of arguments asks for. -/
def parse (arguments : List Text) : Except UsageError Invocation := State.takeAll {} arguments

end Keymap.Command

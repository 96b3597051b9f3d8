import Keymap.Active
import Keymap.Template
import Keymap.Command.Arguments
import Keymap.Text.Styled
import Keymap.Json.Printer

/-!
What the command line prints. A report is a list of lines for the standard output and, where the
command fails, a failure for the error output; a command without a failure ends in success.
-/
namespace Keymap.Command

/-- The path of the configuration where none is given. -/
def defaultPath : Text := "~/.config/repl/keys.conf".toList

/-- What the output depends on besides the arguments. -/
structure Surroundings where
  home : Text
  colour : Bool := false

inductive Failure where
  /-- The patterns in force do not make bindings. -/
  | rejected (cause : BindingError)
  /-- What was tried, and why it failed, from the nearest cause to the deepest. -/
  | traced (attempt : Text) (causes : List Text)
  deriving DecidableEq

structure Report where
  lines : List Text
  failure? : Option Failure := none
  deriving DecidableEq

namespace Failure

/-- A text whose lines after the first are set in. -/
def indented (margin : Nat) (s : Text) : Text :=
  s.flatMap fun c => if c = '\n' then '\n' :: List.replicate margin ' ' else [c]

/-- The causes beneath an attempt, numbered if there are several. -/
def causeLines (causes : List Text) : List Text :=
  match causes with
  | [cause] => ["    ".toList ++ indented 4 cause]
  | _ => causes.zipIdx.map fun numbered =>
    "    ".toList ++ Text.ofNat numbered.2 ++ ": ".toList ++ indented 7 numbered.1

def text (colour : Bool) : Failure → Text
  | .rejected cause =>
    Text.styled colour .boldRed "✗".toList ++ ' ' :: cause.message ++ ['\n']
  | .traced attempt causes =>
    "Error: ".toList ++ attempt ++ "\n\nCaused by:\n".toList ++
      (causeLines causes).flatMap (· ++ ['\n'])

def ofConfigError (attempt : Text) (cause : ConfigError) : Failure :=
  .traced attempt (cause.message :: (cause.fileCause?.map FileError.message).toList)

end Failure

namespace Report

def output (report : Report) : Text := report.lines.flatMap (· ++ ['\n'])

def errorOutput (report : Report) (colour : Bool) : Text :=
  match report.failure? with
  | some failure => failure.text colour
  | none => []

def exitCode (report : Report) : Nat := if report.failure?.isSome then 1 else 0

def prepend (line : Text) (report : Report) : Report :=
  { report with lines := line :: report.lines }

end Report

/-! ## Commands on bindings -/

section

variable (colour : Bool)

def conflictLine (conflict : Conflict) : Text :=
  "  ".toList ++ Text.styled colour .boldCyan conflict.chord.display ++ " → ".toList ++
    Text.join ", ".toList (conflict.categories.map Category.name)

/-- The verdict on bindings, with the chords that are bound to several actions. -/
def checkLines (bindings : Bindings) : List Text :=
  let conflicts := bindings.conflicts
  let verdict := Text.styled colour .boldGreen "✓".toList ++
    ' ' :: Text.styled colour .bold "Key bindings are valid".toList
  if conflicts.isEmpty then
    [verdict, Text.styled colour .green "✓".toList ++
      " No chord is bound to more than one action".toList]
  else
    [verdict, [],
     Text.styled colour .boldYellow "⚠".toList ++ ' ' :: Text.ofNat conflicts.length ++
       (if conflicts.length = 1 then " chord" else " chords").toList ++
       " bound to several actions:".toList,
     []] ++ conflicts.map (conflictLine colour) ++
    [[], Text.styled colour .yellow
      "The first matching action in dispatch order wins for these chords.".toList]

def listLine (entry : Category × ChordList) : Text :=
  Text.styled colour .boldCyan entry.1.name ++ " → ".toList ++
    (if entry.2.isEmpty then Text.styled colour .dim "(not bound, shell default)".toList
     else Text.styled colour .green entry.2.display)

def listLines (bindings : Bindings) (json : Bool) : List Text :=
  if json then [Json.pretty bindings.patterns] else bindings.toList.map (listLine colour)

/-- What a press does: whether it triggers the category asked for, or which category it triggers if
none is asked for. -/
def pressLine (bindings : Bindings) (category? : Option Category) (press : KeyPress) : Text :=
  let shown := Text.styled colour .bold press.display
  let fires (c : Category) : Text :=
    Text.styled colour .green "✓".toList ++ ' ' :: shown ++ " → ".toList ++ c.name
  match category? with
  | some c =>
    if bindings.matchesPress press c then fires c
    else
      Text.styled colour .red "✗".toList ++ ' ' :: shown ++ " does not trigger ".toList ++ c.name
  | none =>
    match bindings.dispatch press Category.all with
    | some c => fires c
    | none =>
      Text.styled colour .dim "-".toList ++ ' ' :: shown ++ " → ".toList ++
        Text.styled colour .dim "no action".toList

def chordLine (bindings : Bindings) (category? : Option Category) (chord : Chord) : Text :=
  match chord.press? with
  | some press => pressLine colour bindings category? press
  | none => Text.styled colour .dim "-".toList ++ " empty key press skipped".toList

/-- A line for each key up to the first that stands for no chord. -/
def testReport (bindings : Bindings) (category? : Option Category) : List Text → Report
  | [] => { lines := [] }
  | key :: keys =>
    match Pattern.chord key with
    | .ok chord =>
      (testReport bindings category? keys).prepend (chordLine colour bindings category? chord)
    | .error cause =>
      { lines := []
        failure? := some
          (.traced ("Invalid key press '".toList ++ key ++ "'".toList) [cause.message]) }

/-! ## Commands on files -/

/-- The line that says where the configuration is from, and the configuration. A file that is
missing stands for no patterns, unless its path was given. -/
def sourceOf (given : Bool) (path : Text) (loaded : Except ConfigError Config) :
    Except Failure (Text × Config) :=
  let arrow := Text.styled colour .cyan "→".toList
  match loaded, given with
  | .ok config, _ => .ok (arrow ++ " Loaded config: ".toList ++ path, config)
  | .error (.notFound _), false =>
    .ok (arrow ++ " No config at ".toList ++ path ++ ", using defaults".toList, Config.empty)
  | .error cause, _ => .error (.ofConfigError ("Failed to load ".toList ++ path) cause)

/-- The report on the bindings of a configuration. -/
def bindingsReport (config : Config) (report : Bindings → Report) : Report :=
  match Bindings.build config with
  | .ok bindings => report bindings
  | .error cause => { lines := [], failure? := some (.rejected cause) }

/-- The report on a template that was to be written. -/
def initReport (path : Text) : Except ConfigError Unit → Report
  | .ok () =>
    { lines := [Text.styled colour .green "✓".toList ++
        " Wrote default key config: ".toList ++ path] }
  | .error cause =>
    { lines := []
      failure? := some (.ofConfigError ("Failed to write ".toList ++ path) cause) }

end

namespace Request

/-- The path of the configuration file. -/
def path (request : Request) (home : Text) : Text :=
  Path.expandHome home (request.config?.getD defaultPath)

/-- The report of a command that reads a configuration file. -/
def report (request : Request) (surroundings : Surroundings)
    (loaded : Except ConfigError Config) : Report :=
  let colour := surroundings.colour
  let path := request.path surroundings.home
  match sourceOf colour request.config?.isSome path loaded with
  | .error failure => { lines := [], failure? := some failure }
  | .ok (line, config) =>
    Report.prepend line <| bindingsReport (config.override request.overrides) fun bindings =>
      match request.action with
      | .check => { lines := checkLines colour bindings }
      | .list json => { lines := listLines colour bindings json }
      | .test category? keys => testReport colour bindings category? keys
      | .init _ => { lines := [] }

/-- Does what is requested on a file tree. -/
def run (request : Request) (surroundings : Surroundings) (t : FileTree) : Report × FileTree :=
  let path := request.path surroundings.home
  match request.action with
  | .init force =>
    let (result, t) := (t.writeTemplate path force).value
    (initReport surroundings.colour path result, t)
  | _ => (request.report surroundings (ConfigFile.load t path), t)

end Request

def versionReport : Report := { lines := ["repl-keybindings 0.4.0".toList] }

/-- Does on a file tree what the arguments ask for. -/
def run (surroundings : Surroundings) (t : FileTree) (arguments : List Text) :
    Except UsageError (Report × FileTree) := do
  match ← parse arguments with
  | .version => return (versionReport, t)
  | .request request => return request.run surroundings t

end Keymap.Command

import Keymap.Bindings.Error
import Keymap.Files.Error
import Keymap.Text.Quoted

/-!
What can go wrong between a configuration file and active bindings. Lines are counted from one.
-/
namespace Keymap

/-- The two shapes of a line that is neither blank nor a comment. -/
inductive LineForm where
  | assignment
  | variable
  deriving DecidableEq

/-- Where a line leaves its form: at `rest`, where a name or a certain sign should stand. -/
inductive LineError where
  | expectedName (rest : Text)
  | expectedSign (rest : Text)
  deriving DecidableEq

/-- The place of a fault and the code of what is missing there. -/
def LineError.report (rest : Text) (code : String) : Text :=
  "Parsing Error: Error \x7b input: ".toList ++ Text.quoted rest ++ ", code: ".toList ++
    code.toList ++ " \x7d".toList

def LineError.message : LineError → Text
  | .expectedName rest => report rest "TakeWhile1"
  | .expectedSign rest => report rest "Char"

inductive ConfigError where
  | notFound (path : Text)
  | malformedLine (line : Nat) (form : LineForm) (cause : LineError)
  | unknownCategory (line : Nat) (name : Text)
  | undefinedVariable (line : Nat) (name : Text)
  | alreadyExists (path : Text)
  /-- The file could not be opened for writing. -/
  | openFailed (cause : FileError)
  | contentFailed (cause : FileError)
  /-- The file written could not be put in its place. -/
  | commitFailed (cause : FileError)
  | bindings (cause : BindingError)
  /-- The directory, given by its whole path, cannot be watched. -/
  | watchFailed (cause : FileError) (directory : Text)
  | file (cause : FileError)
  deriving DecidableEq

namespace ConfigError

/-- What is wrong with a line that has not the form it should have. -/
def lineMessage : LineForm → LineError → Text
  | .assignment, cause => "expected `<category> = <key pattern>`: ".toList ++ cause.message
  | .variable, cause => "expected `$name = value`: ".toList ++ cause.message

def message : ConfigError → Text
  | .notFound path => "Config file not found: ".toList ++ path
  | .malformedLine line form cause =>
    "Parse error on line ".toList ++ Text.ofNat line ++ ": ".toList ++ lineMessage form cause
  | .unknownCategory line name =>
    "Unknown binding category '".toList ++ name ++ "' on line ".toList ++ Text.ofNat line
  | .undefinedVariable line name =>
    "Undefined variable '$".toList ++ name ++ "' on line ".toList ++ Text.ofNat line
  | .alreadyExists path => "Config file already exists: ".toList ++ path
  | .openFailed cause =>
    "Atomic write failed: Failed to open for atomic write: ".toList ++ cause.message
  | .contentFailed cause =>
    "Atomic write failed: Failed to write content: ".toList ++ cause.message
  | .commitFailed cause => "Atomic write failed: Failed to commit: ".toList ++ cause.message
  | .bindings cause => cause.message
  | .watchFailed cause directory =>
    "Failed to watch config: ".toList ++ cause.message ++ " about ".toList ++
      Text.bracketed [Text.quotedPath directory]
  | .file cause => "IO error: ".toList ++ cause.message

/-- The failure of the file system beneath an error, where the error is one. -/
def fileCause? : ConfigError → Option FileError
  | .file cause => some cause
  | _ => none

end ConfigError

end Keymap

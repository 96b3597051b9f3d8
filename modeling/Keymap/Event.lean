import Keymap.ConfigFile.Error
import Keymap.Conflict

/-!
The events that the library reports to whoever listens, each with a level, a message and named
fields.
-/
namespace Keymap

inductive Event where
  /-- A category is assembled without patterns of its own. -/
  | defaultsUsed (category : Category)
  | patternsConfigured (category : Category) (count : Nat)
  | bindingsRejected (cause : BindingError)
  | chordContested (conflict : Conflict)
  | bindingsReloaded
  | fileUnreadable (path : Text) (cause : ConfigError)
  | watching (path : Text)
  | templateWritten (path : Text)
  deriving DecidableEq

namespace Event

inductive Level where
  | debug
  | info
  | warn
  deriving DecidableEq

def level : Event → Level
  | .defaultsUsed _ | .patternsConfigured _ _ | .watching _ => .debug
  | .bindingsReloaded | .templateWritten _ => .info
  | .bindingsRejected _ | .chordContested _ | .fileUnreadable _ _ => .warn

def message : Event → String
  | .defaultsUsed _ => "no key patterns configured, using defaults"
  | .patternsConfigured _ _ => "key patterns configured"
  | .bindingsRejected _ => "rejected key bindings, keeping previous configuration"
  | .chordContested _ => "key chord bound to several actions"
  | .bindingsReloaded => "key bindings reloaded"
  | .fileUnreadable _ _ => "failed to read key config"
  | .watching _ => "watching key config"
  | .templateWritten _ => "wrote default key config"

def fields : Event → List (String × Text)
  | .defaultsUsed c => [("category", c.name)]
  | .patternsConfigured c count => [("category", c.name), ("count", Text.ofNat count)]
  | .bindingsRejected cause => [("error", cause.message)]
  | .chordContested conflict =>
    [("chord", conflict.chord.display),
     ("categories", Text.bracketed (conflict.categories.map fun c => Text.quoted c.name))]
  | .bindingsReloaded => []
  | .fileUnreadable path cause => [("path", path), ("error", cause.message)]
  | .watching path => [("path", path)]
  | .templateWritten path => [("path", path)]

/-- The least level that is shown for a number of requests for more detail. -/
def threshold : Nat → String
  | 0 => "warn"
  | 1 => "info"
  | 2 => "debug"
  | _ => "trace"

end Event

end Keymap

import Keymap.Bindings.Assembly
import Keymap.ConfigFile.Basic
import Keymap.Files.Tree
import Keymap.Text.Utf8

/-!
The bindings in use. They change by replacement only: new bindings are assembled apart and take the
place of the old ones once they are complete, so a failure leaves everything as it was, and who has
taken a snapshot keeps it.
-/
namespace Keymap

namespace ConfigFile

/-- The patterns of a file from what it gave to its reader. -/
def ofReading (path : Text) : Reading → Except ConfigError Config
  | .missing => .error (.notFound path)
  | .unreadable cause => .error (.file cause)
  | .content bytes =>
    match Text.decode? bytes with
    | none => .error (.file .notUtf8)
    | some content => parse content

def load (t : FileTree) (path : Text) : Except ConfigError Config := ofReading path (t.read path)

/-- The patterns of a file, assembled. -/
def loadBindings (t : FileTree) (path : Text) :
    ExceptT ConfigError (Logged Event) Bindings :=
  ExceptT.mk <| match load t path with
    | .error cause => pure (.error cause)
    | .ok config => do
      return (← (Bindings.assemble config).run).mapError .bindings

end ConfigFile

/-- Bindings with an identity: two snapshots with the same number are one and the same. -/
structure Snapshot where
  number : Nat
  bindings : Bindings
  deriving DecidableEq

/-- The snapshot in use, and the number that the next one will have. -/
structure Active where
  current : Snapshot
  next : Nat

namespace Active

def ofBindings (bindings : Bindings) : Active := ⟨⟨0, bindings⟩, 1⟩

def default : Active := ofBindings Bindings.default

/-- Puts bindings in use under a number of their own. -/
def install (a : Active) (bindings : Bindings) : Active := ⟨⟨a.next, bindings⟩, a.next + 1⟩

/-- Puts bindings in use and gives back the snapshot that they replace. -/
def replace (a : Active) (bindings : Bindings) : Snapshot × Active :=
  (a.current, a.install bindings)

/-- Assembles a configuration and puts it in use if that succeeds. -/
def reload (a : Active) (config : Config) :
    Logged Event (Except BindingError Snapshot × Active) := do
  match ← (Bindings.assemble config).run with
  | .error cause =>
    Logged.tell [.bindingsRejected cause]
    return (.error cause, a)
  | .ok bindings =>
    Logged.tell (bindings.conflicts.map .chordContested)
    Logged.tell [.bindingsReloaded]
    return (.ok (a.install bindings).current, a.install bindings)

/-- Reloads from what the file of a path gave to its reader, with the same rule. -/
def reloadReading (a : Active) (path : Text) (reading : Reading) :
    Logged Event (Except ConfigError Snapshot × Active) := do
  match ConfigFile.ofReading path reading with
  | .error cause =>
    Logged.tell [.fileUnreadable path cause]
    return (.error cause, a)
  | .ok config =>
    let (result, after) ← a.reload config
    return (result.mapError .bindings, after)

/-- Reads a file and reloads from it. -/
def reloadFile (a : Active) (t : FileTree) (path : Text) :
    Logged Event (Except ConfigError Snapshot × Active) :=
  a.reloadReading path (t.read path)

end Active

end Keymap

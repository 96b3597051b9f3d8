import Keymap.Active

/-!
Watching a configuration file for changes. What is watched is the directory of the file, since a
file may be saved by moving another one onto it. A change is a notification that something with the
name of the file has been created or modified.
-/
namespace Keymap

namespace Notification

inductive Kind where
  | access
  | create
  | modify
  | remove
  | other
  deriving DecidableEq

end Notification

/-- What the system tells about watched things: an event with the paths it concerns, or a failure.
-/
inductive Notification where
  | event (kind : Notification.Kind) (paths : List Text)
  | failure
  deriving DecidableEq

structure Watch where
  /-- The path of the configuration file. -/
  path : Text
  /-- The whole path of the watched directory, which the paths of notifications start with. -/
  root : Text
  /-- Where the watched directory is now; it can be moved. It is missing once the directory is gone.
  -/
  place? : Option Location
  /-- The notifications that have not been looked at. -/
  queue : List Notification := []

namespace Watch

/-- Starts to watch the directory of a path. -/
def start (t : FileTree) (path : Text) : Logged Event (Except ConfigError Watch) :=
  let root := t.absolute (Path.directory path)
  match t.resolve (Path.directory path) with
  | .error cause => pure (.error (.watchFailed cause root))
  | .ok place => ⟨[.watching path], .ok { path, root, place? := some place }⟩

/-! ## Receiving notifications -/

def deliver (w : Watch) (notification : Notification) : Watch :=
  { w with queue := w.queue ++ [notification] }

/-- Delivers an event at a place, if the place is in the watched directory or is the directory
itself. Events deeper in the tree are not seen. -/
def deliverAt (w : Watch) (kind : Notification.Kind) (place : Location) : Watch :=
  if w.place? = some place then w.deliver (.event kind [w.root])
  else
    match place with
    | [] => w
    | name :: up =>
      if w.place? = some up then w.deliver (.event kind [w.root ++ '/' :: name]) else w

/-- Takes notice of a change in the file tree. A watched thing that is moved stays watched; one that
is removed loses its last link, which counts as a modification of the thing itself. -/
def observe (w : Watch) : Change → Watch
  | .created place => w.deliverAt .create place
  | .written place => w.deliverAt .modify place
  | .removed place =>
    if w.place? = some place then { w.deliverAt .modify place with place? := none }
    else w.deliverAt .remove place
  | .moved none place => w.deliverAt .modify place
  | .moved (some old) place =>
    let noticed := (w.deliverAt .modify old).deliverAt .modify place
    { noticed with place? := w.place?.map (FileTree.relocate old place) }

/-- Takes notice of what has happened between two states of the file tree. -/
def follow (w : Watch) (before after : FileTree) : Watch :=
  (after.changes.drop before.changes.length).foldl observe w

/-! ## Asking for changes -/

/-- Whether a notification tells of a change of the file. -/
def isRelevant (w : Watch) : Notification → Bool
  | .event kind paths =>
    (kind == .create || kind == .modify) &&
      paths.any fun path => Path.fileName? path == Path.fileName? w.path
  | .failure => false

/-- Whether the file has changed since the last question, which takes all notifications from the
queue. -/
def changed (w : Watch) : Bool × Watch := (w.queue.any w.isRelevant, { w with queue := [] })

/-- Reloads from the file if it has changed, where `read` says what a path gives to its reader. The
queue is emptied before the file is read, so a change in between is found by the next question. -/
def reloadIfChangedFrom (w : Watch) (a : Active) (read : Text → Reading) :
    Logged Event (Option (Except ConfigError Snapshot) × Watch × Active) := do
  let (hasChanged, w) := w.changed
  if hasChanged then
    let (result, a) ← a.reloadReading w.path (read w.path)
    return (some result, w, a)
  else return (none, w, a)

/-- Reloads from the file in a tree if it has changed. -/
def reloadIfChanged (w : Watch) (a : Active) (t : FileTree) :
    Logged Event (Option (Except ConfigError Snapshot) × Watch × Active) :=
  w.reloadIfChangedFrom a t.read

end Watch

end Keymap

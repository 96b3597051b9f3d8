import Keymap.Files.Path
import Keymap.Files.Error

/-!
File trees: directories, files and their contents, without links and permissions. Every operation
ends in a new tree or in the failure that the system would report, and a tree remembers what has
happened to its entries, so that a watch can tell.
-/
namespace Keymap

/-- The names from an entry up to the root, its own name first. -/
abbrev Location := List Text

inductive Entry where
  | file (content : ByteArray)
  | directory

inductive Change where
  | created (place : Location)
  | written (place : Location)
  | removed (place : Location)
  /-- An entry has a new place. Its old one is missing if it was a temporary file. -/
  | moved (old? : Option Location) (place : Location)
  deriving DecidableEq

structure FileTree where
  /-- All entries but the root, each location once. -/
  entries : List (Location × Entry) := []
  /-- The directory where relative paths start. -/
  working : Location := []
  /-- What has happened so far, in its order. -/
  changes : List Change := []

/-- What a file gives to a reader. -/
inductive Reading where
  | missing
  | unreadable (cause : FileError)
  | content (bytes : ByteArray)

namespace FileTree

/-! ## Looking up -/

def get? (t : FileTree) : Location → Option Entry
  | [] => some .directory
  | name :: up => t.entries.lookup (name :: up)

def isDirectory (t : FileTree) (place : Location) : Bool :=
  match t.get? place with
  | some .directory => true
  | _ => false

/-- The place one segment further. Every segment, also an idle one, can only be taken from a
directory. -/
def step (t : FileTree) (place : Location) (segment : Text) : Except FileError Location :=
  if !t.isDirectory place then .error .notDirectory
  else if Path.isIdle segment then .ok place
  else if segment = Path.dotDot then .ok place.tail
  else if (t.get? (segment :: place)).isSome then .ok (segment :: place)
  else .error .notFound

def walk (t : FileTree) (place : Location) (segments : List Text) : Except FileError Location :=
  segments.foldlM t.step place

def start (t : FileTree) (path : Text) : Location := if Path.isAbsolute path then [] else t.working

/-- The place of what a path names. -/
def resolve (t : FileTree) (path : Text) : Except FileError Location :=
  if path.isEmpty then .error .notFound else t.walk (t.start path) (path.splitOn '/')

def pathExists (t : FileTree) (path : Text) : Bool := (t.resolve path).isOk

def isDirectoryPath (t : FileTree) (path : Text) : Bool :=
  match t.resolve path with
  | .ok place => t.isDirectory place
  | .error _ => false

def read (t : FileTree) (path : Text) : Reading :=
  match t.resolve path with
  | .error _ => .missing
  | .ok place =>
    match t.get? place with
    | some (.file bytes) => .content bytes
    | some .directory => .unreadable .isDirectory
    | none => .missing

/-- The directory in which a path would have a new entry, and the name of that entry. -/
def site (t : FileTree) (path : Text) : Except FileError (Location × Text) :=
  match (path.splitOn '/').reverse.dropWhile List.isEmpty with
  | [] => if path.isEmpty then .error .notFound else .ok ([], Path.dot)
  | name :: outer => do
    let place ← t.walk (t.start path) outer.reverse
    if t.isDirectory place then .ok (place, name) else .error .notDirectory

/-- The path from the root. -/
def absolute (t : FileTree) (path : Text) : Text :=
  if Path.isAbsolute path then path
  else '/' :: Text.join ['/'] (t.working.reverse ++ [path])

/-! ## Changing -/

def erase (t : FileTree) (place : Location) : FileTree :=
  { t with entries := t.entries.filter fun e => e.1 ≠ place }

def put (t : FileTree) (place : Location) (entry : Entry) : FileTree :=
  { t with entries := (place, entry) :: (t.erase place).entries }

def note (t : FileTree) (change : Change) : FileTree :=
  { t with changes := t.changes ++ [change] }

theorem lookup_filter_ne (entries : List (Location × Entry)) {place q : Location} (h : q ≠ place) :
    (entries.filter fun e => e.1 ≠ place).lookup q = entries.lookup q := by
  induction entries with
  | nil => rfl
  | cons e entries ih =>
    by_cases he : e.1 = place
    · have hq : (q == e.1) = false := by simpa [he] using h
      rw [List.filter_cons_of_neg (by simpa using he), ih, List.lookup_cons, hq]
    · rw [List.filter_cons_of_pos (by simpa using he), List.lookup_cons, List.lookup_cons, ih]

theorem get?_put (t : FileTree) (place q : Location) (entry : Entry) (h : place ≠ []) :
    (t.put place entry).get? q = if q = place then some entry else t.get? q := by
  cases q with
  | nil => simp [get?, Ne.symm h]
  | cons name up =>
    by_cases hq : name :: up = place
    · simp [get?, put, hq]
    · have hne : (name :: up == place) = false := by simpa using hq
      rw [if_neg hq, get?, get?, put, List.lookup_cons, hne]
      exact lookup_filter_ne t.entries hq

theorem get?_note (t : FileTree) (change : Change) (q : Location) :
    (t.note change).get? q = t.get? q := by
  cases q <;> rfl

/-- Makes a directory whose parent exists. -/
def makeDirectory (t : FileTree) (path : Text) : Except FileError FileTree := do
  let (place, name) ← t.site path
  if name = Path.dot ∨ name = Path.dotDot ∨ (t.get? (name :: place)).isSome then
    .error .alreadyExists
  else .ok ((t.put (name :: place) .directory).note (.created (name :: place)))

/-- Makes the directory of the segments, the last one first, and those above it that are missing.
What has been made before a failure stays. -/
def makeDirectoriesUp (lead : Text) : List Text → FileTree → Except FileError Unit × FileTree
  | [], t => (.ok (), t)
  | segment :: outer, t =>
    if Path.isIdle segment then makeDirectoriesUp lead outer t
    else
      let path := Path.ofSegmentsUp lead (segment :: outer)
      let attempt (t : FileTree) : Except FileError Unit × FileTree :=
        match t.makeDirectory path with
        | .ok made => (.ok (), made)
        | .error cause => (if t.isDirectoryPath path then .ok () else .error cause, t)
      match t.makeDirectory path with
      | .error .notFound =>
        match makeDirectoriesUp lead outer t with
        | (.ok (), above) => attempt above
        | (.error cause, above) => (.error cause, above)
      | _ => attempt t

/-- Makes a directory with all the directories above it. That it exists already is no failure. -/
def makeDirectories (t : FileTree) (path : Text) : Except FileError Unit × FileTree :=
  makeDirectoriesUp (Path.lead path) (Path.segmentsUp path) t

/-- Makes the directories above what the path names. -/
def makeParents (t : FileTree) (path : Text) : Except FileError Unit × FileTree :=
  match Path.parent? path with
  | some parent => t.makeDirectories parent
  | none => (.ok (), t)

/-- Writes a file in a directory that exists. -/
def writeFile (t : FileTree) (path : Text) (bytes : ByteArray) : Except FileError FileTree := do
  let (up, name) ← t.site path
  let place := name :: up
  if name = Path.dot ∨ name = Path.dotDot ∨ path.getLast? = some '/' then .error .isDirectory
  else
    match t.get? place with
    | some .directory => .error .isDirectory
    | some (.file _) => .ok ((t.put place (.file bytes)).note (.written place))
    | none => .ok ((t.put place (.file bytes)).note (.created place))

def removeFile (t : FileTree) (path : Text) : Except FileError FileTree := do
  let place ← t.resolve path
  if t.isDirectory place then .error .isDirectory
  else .ok ((t.erase place).note (.removed place))

/-- The place of an entry after the move of another entry, if it lies within that one. -/
def relocate (source target place : Location) : Location :=
  if source.isSuffixOf place then place.take (place.length - source.length) ++ target else place

def move (t : FileTree) (source target : Location) : FileTree :=
  { t with
    entries := t.entries.map fun e => (relocate source target e.1, e.2)
    working := relocate source target t.working }

/-- Whether nothing lies within the entry. -/
def isEmptyDirectory (t : FileTree) (place : Location) : Bool :=
  t.entries.all fun e => e.1.tail != place

/-- Gives an entry a new path. What has that path already is replaced if it is of the same kind, and
empty if it is a directory. -/
def rename (t : FileTree) (path target : Text) : Except FileError FileTree := do
  let source ← t.resolve path
  let (up, name) ← t.site target
  let place := name :: up
  if source = place then return t
  else if source.isSuffixOf place ∨ name = Path.dot ∨ name = Path.dotDot then
    .error (.other "Invalid argument (os error 22)".toList)
  else
    match t.isDirectory source, t.get? place with
    | _, none => .ok ((t.move source place).note (.moved (some source) place))
    | false, some .directory => .error .isDirectory
    | true, some (.file _) => .error .notDirectory
    | _, some _ =>
      if t.isEmptyDirectory place then
        let cleared := (t.erase place).note (.removed place)
        .ok ((cleared.move source place).note (.moved (some source) place))
      else .error (.other "Directory not empty (os error 39)".toList)

end FileTree

end Keymap

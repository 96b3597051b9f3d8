import Keymap.Event
import Keymap.Logged
import Keymap.Files.Tree
import Keymap.Text.Utf8

/-!
The configuration file that a user starts from, and the way it is put in place: a temporary file is
written beside it and moved onto its name, so that no reader sees half of it.
-/
namespace Keymap

namespace Template

def lines : List String :=
  ["# REPL key bindings",
   "#",
   "# One key pattern per line: <category> = <pattern>",
   "# Repeat a category to bind several patterns. A category with no lines",
   "# (or only empty values) uses its built-in default.",
   "#",
   "# Patterns join parts with '+':",
   "#   named keys  Enter, Tab, Space, Escape, Backspace, Delete, Insert, Home,",
   "#               End, PageUp, PageDown, UpArrow, DownArrow, LeftArrow,",
   "#               RightArrow, F1-F24, A-Z",
   "#   modifiers   Control (or Ctrl), Alt, Shift",
   "#   characters  any other single character, e.g. '.' or '(' (no modifiers)",
   "#",
   "# Variables: define with `$name = value`, use as `$name`.",
   "",
   "$mod = Control",
   "",
   "commit-completion = Enter",
   "commit-completion = Tab",
   "commit-completion = Space",
   "commit-completion = .",
   "commit-completion = (",
   "",
   "trigger-completion-list = $mod+Space",
   "trigger-completion-list = $mod+J",
   "",
   "# No defaults: the shell decides what Enter does",
   "# insert-newline = Shift+Enter",
   "# submit-input = Enter"]

/-- The template. Read as a configuration it says the same as the defaults. -/
def text : Text := lines.flatMap fun line => line.toList ++ ['\n']

/-! ## Putting it in place -/

/-- What a file system does for the template; `τ` stands for a temporary file. -/
structure Steps (m : Type → Type) (τ : Type) where
  pathExists (path : Text) : m Bool
  /-- Makes the directories above what the path names. -/
  makeParents (path : Text) : ExceptT FileError m Unit
  /-- Makes a temporary file in a directory, beside all that is there. -/
  openBeside (directory name : Text) : ExceptT FileError m τ
  fill (temporary : τ) (bytes : ByteArray) : ExceptT FileError m τ
  /-- Moves the temporary file onto a name in its directory. -/
  commit (temporary : τ) (name : Text) : ExceptT FileError m Unit

section

variable {m : Type → Type} [Monad m] {τ : Type}

/-- Replaces the file that a path ends in, or makes it, by moving a temporary file onto it. Only the
name counts that the path ends in, so what follows it, such as a slash, does not have to make sense.
-/
def replace (steps : Steps m τ) (path : Text) (bytes : ByteArray) : ExceptT ConfigError m Unit :=
  match Path.fileName? path with
  | none => throw (.openFailed .isDirectory)
  | some name => do
    let opened ← (steps.openBeside (Path.directory path) name).adapt .openFailed
    let filled ← (steps.fill opened bytes).adapt .contentFailed
    (steps.commit filled name).adapt .commitFailed

/-- Writes the template, with all directories above it that are missing. What exists under the path
is left alone unless `force` is set. -/
def write (steps : Steps m τ) (path : Text) (force : Bool) : ExceptT ConfigError m Unit := do
  if (← steps.pathExists path) && !force then throw (.alreadyExists path)
  else
    (steps.makeParents path).adapt .file
    replace steps path text.encode

end

end Template

namespace FileTree

/-- The steps on a file tree. A temporary file, which is never seen, is its directory with what is
written to it. -/
def templateSteps : Template.Steps (StateM FileTree) (Location × ByteArray) where
  pathExists path t := (t.pathExists path, t)
  makeParents path := .mk fun t => t.makeParents path
  openBeside directory _ := .mk fun t =>
    match t.resolve directory with
    | .error cause => (.error cause, t)
    | .ok up => (if t.isDirectory up then .ok (up, .empty) else .error .notDirectory, t)
  fill temporary bytes := pure (temporary.1, bytes)
  commit temporary name := .mk fun t =>
    let place := name :: temporary.1
    if t.isDirectory place then (.error .isDirectory, t)
    else (.ok (), (t.put place (.file temporary.2)).note (.moved none place))

def replaceFile (t : FileTree) (path : Text) (bytes : ByteArray) :
    Except ConfigError Unit × FileTree :=
  (Template.replace templateSteps path bytes).run t

def writeTemplate (t : FileTree) (path : Text) (force : Bool) :
    Logged Event (Except ConfigError Unit × FileTree) :=
  let written := (Template.write templateSteps path force).run t
  match written.1 with
  | .ok () => ⟨[.templateWritten path], written⟩
  | .error _ => pure written

end FileTree

end Keymap

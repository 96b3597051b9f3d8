import Keymap.Text.Blank
import Keymap.Text.Alphanumeric
import Keymap.ConfigFile.Error

/-!
The lines of a configuration file that say something: `name = value`, and the same with a dollar
sign in front, which defines a variable.
-/
namespace Keymap

structure Assignment where
  name : Text
  value : Text
  deriving DecidableEq

namespace Assignment

def isNameChar (c : Char) : Bool := Text.isAlphanumeric c || c == '-' || c == '_'

/-- The white space that may stand on the two sides of the equals sign. -/
def isGap (c : Char) : Bool := c == ' ' || c == '\t'

/-- A name, the first equals sign and the value, which runs to the end of the text, with the rest
behind them. Only the first equals sign separates, so the value can be an equals sign itself. -/
def scan (s : Text) : Except LineError (Text × Assignment) :=
  let name := s.takeWhile isNameChar
  if name.isEmpty then .error (.expectedName s)
  else
    match (s.dropWhile isNameChar).dropWhile isGap with
    | '=' :: rest => .ok ([], ⟨name, Text.trimEnd (rest.dropWhile isGap)⟩)
    | rest => .error (.expectedSign rest)

/-- The definition of a variable: an assignment behind a dollar sign. -/
def scanDefinition : Text → Except LineError (Text × Assignment)
  | '$' :: rest => scan rest
  | s => .error (.expectedSign s)

def ofText (s : Text) : Except LineError Assignment := (scan s).map Prod.snd

def ofDefinition (s : Text) : Except LineError Assignment := (scanDefinition s).map Prod.snd

end Assignment

end Keymap

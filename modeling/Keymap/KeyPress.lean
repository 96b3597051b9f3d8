import Keymap.Modifier
import Keymap.Key

/-!
Key presses as the input loop sees them: the modifiers held, the named key if there is one, and the
character typed if there is one. Space, for instance, has both.
-/
namespace Keymap

structure KeyPress where
  modifiers : Modifiers := {}
  key? : Option Key := none
  char? : Option Char := none
  deriving DecidableEq

namespace KeyPress

def ofKey (key : Key) (modifiers : Modifiers := {}) : KeyPress := { modifiers, key? := some key }

def ofChar (c : Char) (modifiers : Modifiers := {}) : KeyPress := { modifiers, char? := some c }

/-- The modifiers and the key of a press. The typed character stands in where no key is named. -/
def display (press : KeyPress) : Text :=
  let held := if press.modifiers.isEmpty then [] else press.modifiers.display ++ ['+']
  match press.key?, press.char? with
  | some key, _ => held ++ key.display
  | none, some c => held ++ [c]
  | none, none => held ++ "<none>".toList

end KeyPress

end Keymap

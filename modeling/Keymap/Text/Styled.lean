import Keymap.Text.Basic

/-!
Terminal styles. A styled text is set between the escape sequence that turns the style on and the
one that turns all styles off.
-/
namespace Keymap.Text

/-- A style as the parameters of its escape sequence. -/
inductive Style where
  | bold
  | dim
  | red
  | green
  | yellow
  | cyan
  | boldRed
  | boldGreen
  | boldYellow
  | boldCyan

def Style.parameters : Style → String
  | .bold => "1"
  | .dim => "2"
  | .red => "31"
  | .green => "32"
  | .yellow => "33"
  | .cyan => "36"
  | .boldRed => "1;31"
  | .boldGreen => "1;32"
  | .boldYellow => "1;33"
  | .boldCyan => "1;36"

/-- The text in a style where the output shows colours, and the plain text elsewhere. -/
def styled (colour : Bool) (style : Style) (s : Text) : Text :=
  if colour then
    "\x1b[".toList ++ style.parameters.toList ++ "m".toList ++ s ++ "\x1b[0m".toList
  else s

end Keymap.Text

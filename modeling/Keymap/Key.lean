import Keymap.Text.Basic

/-!
Keys with a name. Letters are among them, so that they can be held together with modifiers.
-/
namespace Keymap

/-- A key by its name. The number of a function key and the character of a letter key are free here;
the names that `Key.ofName?` accepts give F1 to F24 and A to Z only. -/
inductive Key where
  | enter
  | tab
  | space
  | escape
  | backspace
  | delete
  | insert
  | home
  | endKey
  | pageUp
  | pageDown
  | up
  | down
  | left
  | right
  | function (number : Nat)
  | letter (char : Char)
  deriving DecidableEq

namespace Key

/-- The words for keys, in lower case: of each key its full name and its short forms. -/
def words : List (String × Key) :=
  [("enter", .enter), ("return", .enter), ("tab", .tab), ("space", .space), ("spacebar", .space),
   ("escape", .escape), ("esc", .escape), ("backspace", .backspace), ("delete", .delete),
   ("del", .delete), ("insert", .insert), ("ins", .insert), ("home", .home), ("end", .endKey),
   ("pageup", .pageUp), ("pagedown", .pageDown), ("up", .up), ("uparrow", .up), ("down", .down),
   ("downarrow", .down), ("left", .left), ("leftarrow", .left), ("right", .right),
   ("rightarrow", .right)]

/-- The letter key of an ASCII letter of either case. -/
def ofLetter? (c : Char) : Option Key := if c.isAlpha then some (.letter c.toUpper) else none

/-- The function key written as an `f` and its number in decimal digits, 1 to 24 and without a
leading zero. -/
def ofFunctionName? : Text → Option Key
  | 'f' :: first :: digits =>
    if first ≠ '0' ∧ (first :: digits).all Char.isDigit then
      let number := Nat.ofDigitChars 10 (first :: digits) 0
      if number ≤ 24 then some (.function number) else none
    else none
  | _ => none

def ofSingleLetter? : Text → Option Key
  | [c] => ofLetter? c
  | _ => none

/-- The key of a name in any mixture of upper and lower case. -/
def ofName? (s : Text) : Option Key :=
  Text.lookup words s.toLower <|> ofFunctionName? s.toLower <|> ofSingleLetter? s

/-- The name a key is shown by. -/
def display : Key → Text
  | .enter => "Enter".toList
  | .tab => "Tab".toList
  | .space => "Space".toList
  | .escape => "Escape".toList
  | .backspace => "Backspace".toList
  | .delete => "Delete".toList
  | .insert => "Insert".toList
  | .home => "Home".toList
  | .endKey => "End".toList
  | .pageUp => "PageUp".toList
  | .pageDown => "PageDown".toList
  | .up => "UpArrow".toList
  | .down => "DownArrow".toList
  | .left => "LeftArrow".toList
  | .right => "RightArrow".toList
  | .function n => 'F' :: Text.ofNat n
  | .letter c => [c]

end Key

end Keymap

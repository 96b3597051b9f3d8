import Keymap.KeyPress

/-!
Key reports of a terminal and the key presses that they amount to.
-/
namespace Keymap

/-- The key of a report. Terminals report typed characters, letters included, as characters, and a
tab with Shift as a key of its own. -/
inductive TerminalKey where
  | enter
  | tab
  | backTab
  | escape
  | backspace
  | delete
  | insert
  | home
  | endKey
  | pageUp
  | pageDown
  | up
  | down
  | left
  | right
  | function (number : Nat)
  | char (c : Char)
  | null
  | capsLock
  | scrollLock
  | numLock
  | printScreen
  | pause
  | menu
  | keypadBegin
  | media
  | modifier
  deriving DecidableEq

structure TerminalModifiers where
  shift : Bool := false
  control : Bool := false
  alt : Bool := false
  superKey : Bool := false
  hyperKey : Bool := false
  metaKey : Bool := false
  deriving DecidableEq

/-- The modifiers that a chord can ask for; the others are dropped. -/
def TerminalModifiers.modifiers (ms : TerminalModifiers) : Modifiers :=
  { control := ms.control, alt := ms.alt, shift := ms.shift }

inductive PressKind where
  | press
  | repeated
  | release
  deriving DecidableEq

structure TerminalPress where
  key : TerminalKey
  modifiers : TerminalModifiers := {}
  kind : PressKind := .press
  deriving DecidableEq

namespace TerminalPress

/-- The named key of a report that types no character. -/
def namedKey? : TerminalKey → Option Key
  | .enter => some .enter
  | .tab | .backTab => some .tab
  | .escape => some .escape
  | .backspace => some .backspace
  | .delete => some .delete
  | .insert => some .insert
  | .home => some .home
  | .endKey => some .endKey
  | .pageUp => some .pageUp
  | .pageDown => some .pageDown
  | .up => some .up
  | .down => some .down
  | .left => some .left
  | .right => some .right
  | .function n => if 1 ≤ n ∧ n ≤ 24 then some (.function n) else none
  | _ => none

/-- The press of a typed character. The space bar and the letters are named keys too. -/
def ofChar (c : Char) (modifiers : Modifiers) : KeyPress :=
  { modifiers, key? := if c = ' ' then some .space else Key.ofLetter? c, char? := some c }

/-- The key press of a report. Releases, and keys that no chord can name, give none. -/
def keyPress? (report : TerminalPress) : Option KeyPress :=
  let held := report.modifiers.modifiers
  match report.kind, report.key with
  | .release, _ => none
  | _, .char c => some (ofChar c held)
  | _, .backTab => some (.ofKey .tab (held.insert .shift))
  | _, key => (namedKey? key).map (.ofKey · held)

end TerminalPress

end Keymap

import Keymap.KeyPress

/-!
Chords, the gestures that a pattern can stand for, and when a key press triggers one.
-/
namespace Keymap

/-- A named key with modifiers, or a literal character, which never carries modifiers. The chord
`unconfigured` is what a blank pattern stands for; no press triggers it. -/
inductive Chord where
  | unconfigured
  | named (key : Key) (modifiers : Modifiers)
  | literal (char : Char)
  deriving DecidableEq

namespace Chord

def isConfigured : Chord → Bool
  | .unconfigured => false
  | _ => true

def modifiers : Chord → Modifiers
  | .named _ ms => ms
  | _ => {}

/-- Whether a press triggers the chord. A named key asks for the same key and exactly the same
modifiers. A literal asks for the typed character; Shift takes part in typing it and is ignored,
while Control and Alt never go with a literal. -/
def matchesPress : Chord → KeyPress → Bool
  | .unconfigured, _ => false
  | .named key ms, press => press.key? == some key && press.modifiers == ms
  | .literal c, press =>
    press.char? == some c && !press.modifiers.control && !press.modifiers.alt

/-- The pattern that is shown for a chord. -/
def display : Chord → Text
  | .unconfigured => []
  | .named key ms => if ms.isEmpty then key.display else ms.display ++ '+' :: key.display
  | .literal c => [c]

/-- The plainest press that a chord describes. -/
def press? : Chord → Option KeyPress
  | .unconfigured => none
  | .named key ms => some (.ofKey key ms)
  | .literal c => some (.ofChar c)

end Chord

/-- The chords of one action in the order of configuration, repetitions included. -/
abbrev ChordList := List Chord

namespace ChordList

/-- The first chord that the press triggers. -/
def find? (chords : ChordList) (press : KeyPress) : Option Chord :=
  List.find? (·.matchesPress press) chords

def matchesPress (chords : ChordList) (press : KeyPress) : Bool := chords.any (·.matchesPress press)

def display (chords : ChordList) : Text := Text.join ", ".toList (chords.map Chord.display)

end ChordList

end Keymap

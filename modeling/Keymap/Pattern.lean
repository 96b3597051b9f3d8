import Keymap.Text.Blank
import Keymap.Chord

/-!
Key patterns: the names of keys, modifiers and characters with plus signs between them, such as
`Control+F1` or `.`; and the chord that a pattern stands for.
-/
namespace Keymap

inductive PatternError where
  /-- Only modifiers are given. -/
  | missingPrimary
  /-- Two named keys, or two literal characters. -/
  | ambiguousPrimary
  /-- A named key together with a literal character. -/
  | conflictingPrimary
  /-- A literal character together with modifiers. -/
  | modifiedLiteral
  /-- A part that is no key, no modifier and not a single character. -/
  | unrecognized (part : Text)
  deriving DecidableEq

def PatternError.message : PatternError → Text
  | .missingPrimary => "no key or character given, only modifiers".toList
  | .ambiguousPrimary => "more than one key or character given".toList
  | .conflictingPrimary => "a named key and a literal character cannot be combined".toList
  | .modifiedLiteral => "literal characters do not support modifiers".toList
  | .unrecognized part => "unrecognized token '".toList ++ part ++ "'".toList

namespace Pattern

/-- What one part of a pattern stands for. -/
inductive Part where
  | key (key : Key)
  | modifier (modifier : Modifier)
  | literal (char : Char)
  deriving DecidableEq

/-- A part names a key if it can, else a modifier, else it is a single character. -/
def Part.ofText (s : Text) : Except PatternError Part :=
  match Key.ofName? s, Modifier.ofName? s, s with
  | some k, _, _ => .ok (.key k)
  | none, some m, _ => .ok (.modifier m)
  | none, none, [c] => .ok (.literal c)
  | none, none, _ => .error (.unrecognized s)

/-- What the parts read so far amount to: the modifiers, and the key or character if there was one.
-/
structure Draft where
  modifiers : Modifiers := {}
  primary? : Option (Key ⊕ Char) := none
  deriving DecidableEq

/-- Takes in one more part. A second key or character is refused at once. -/
def Draft.add (draft : Draft) : Part → Except PatternError Draft
  | .modifier m => .ok { draft with modifiers := draft.modifiers.insert m }
  | .key key =>
    match draft.primary? with
    | none => .ok { draft with primary? := some (.inl key) }
    | some (.inl _) => .error .ambiguousPrimary
    | some (.inr _) => .error .conflictingPrimary
  | .literal c =>
    match draft.primary? with
    | none => .ok { draft with primary? := some (.inr c) }
    | some (.inl _) => .error .conflictingPrimary
    | some (.inr _) => .error .ambiguousPrimary

/-- The chord of a pattern whose parts have all been taken in. -/
def Draft.chord (draft : Draft) : Except PatternError Chord :=
  match draft.primary? with
  | none => .error .missingPrimary
  | some (.inl key) => .ok (.named key draft.modifiers)
  | some (.inr c) => if draft.modifiers.isEmpty then .ok (.literal c) else .error .modifiedLiteral

/-- The trimmed pieces between the plus signs. -/
def parts (s : Text) : List Text := (s.splitOn '+').map Text.trim

def Draft.addText (draft : Draft) (part : Text) : Except PatternError Draft := do
  draft.add (← Part.ofText part)

/-- The chord that a pattern stands for. A blank pattern stands for the unconfigured chord. -/
def chord (s : Text) : Except PatternError Chord :=
  if (Text.trim s).isEmpty then .ok .unconfigured
  else do
    let draft ← (parts s).foldlM Draft.addText {}
    draft.chord

end Pattern

end Keymap

import Keymap.ConfigFile.Line

/-!
Variables of a configuration file and the references to them. A reference is a dollar sign followed
by a name; a dollar sign without a name stands for itself.
-/
namespace Keymap

/-- Names with their values, the latest definition first. -/
abbrev Variables := List (Text × Text)

namespace Variables

def value? (vars : Variables) (name : Text) : Option Text := vars.lookup name

/-- The variables that a file defines, wherever the definition stands. Lines that are no well-formed
definition define nothing. -/
def ofFile (content : Text) : Variables :=
  let defined := (Text.lines content).filterMap fun line =>
    (Assignment.ofDefinition (Text.trim line)).toOption
  (defined.map fun a => (a.name, a.value)).reverse

end Variables

/-- A piece of a value: a character that stands for itself, or a reference to a variable. -/
inductive Piece where
  | plain (char : Char)
  | reference (name : Text)
  deriving DecidableEq

namespace Piece

/-- The characters of a name in a reference. -/
def isReferenceChar (c : Char) : Bool := c.isAlphanum || c == '-' || c == '_'

/-- The pieces of a value from left to right. A reference takes in all the characters it can, which
are the first pieces of the rest. -/
def ofText : Text → List Piece
  | [] => []
  | c :: rest =>
    if c = '$' ∧ rest.takeWhile isReferenceChar ≠ [] then
      let name := rest.takeWhile isReferenceChar
      .reference name :: (ofText rest).drop name.length
    else .plain c :: ofText rest

theorem drop_ofText (s : Text) :
    (ofText s).drop (s.takeWhile isReferenceChar).length =
      ofText (s.dropWhile isReferenceChar) := by
  induction s with
  | nil => rfl
  | cons c rest ih =>
    by_cases hc : isReferenceChar c
    · have hsign : c ≠ '$' := by
        rintro rfl
        exact absurd hc (by decide)
      rw [List.takeWhile_cons_of_pos hc, List.dropWhile_cons_of_pos hc, ofText,
        if_neg (fun h => hsign h.1), List.length_cons, List.drop_succ_cons, ih]
    · rw [List.takeWhile_cons_of_neg hc, List.dropWhile_cons_of_neg hc]
      rfl

/-- What the piece comes to; an undefined reference is refused with its name. -/
def expand (vars : Variables) : Piece → Except Text Text
  | .plain c => .ok [c]
  | .reference name =>
    match vars.value? name with
    | some value => .ok value
    | none => .error name

end Piece

/-- The value with each reference replaced by the value of its variable, which is not looked through
again. The leftmost undefined reference is the error. -/
def Variables.substitute (vars : Variables) (value : Text) : Except Text Text := do
  let expanded ← (Piece.ofText value).mapM (Piece.expand vars)
  return expanded.flatten

end Keymap

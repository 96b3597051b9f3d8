/-!
Text as a list of characters. Patterns, file contents and printed lines are all texts, so each rule
about them is a recursion on the list.
-/
namespace Keymap

abbrev Text := List Char

namespace Text

/-- Lower case for the letters A to Z. Every other character stays as it is, also those that have a
lower case elsewhere in Unicode. -/
def toLower (s : Text) : Text := s.map Char.toLower

@[simp] theorem toLower_nil : toLower [] = [] := rfl

@[simp] theorem toLower_cons (c : Char) (s : Text) : toLower (c :: s) = c.toLower :: toLower s :=
  rfl

@[simp] theorem length_toLower (s : Text) : (toLower s).length = s.length := by simp [toLower]

/-- The parts, with the separator between each two of them. -/
def join (separator : Text) (parts : List Text) : Text := separator.intercalate parts

/-- A number in decimal digits. -/
def ofNat (n : Nat) : Text := Nat.toDigits 10 n

/-- The meaning of a word in a table of words. -/
def lookup {α : Type} (table : List (String × α)) (word : Text) : Option α :=
  (table.find? fun entry => entry.1.toList == word).map Prod.snd

/-- The number of bytes of the text in UTF-8. -/
def byteCount : Text → Nat
  | [] => 0
  | c :: s => c.utf8Size + byteCount s

/-- The order of texts character by character, which is also the order of their bytes in UTF-8. -/
def precedes : Text → Text → Bool
  | [], _ => true
  | _ :: _, [] => false
  | c :: s, d :: t => c.toNat < d.toNat || (c == d && precedes s t)

theorem precedes_total (s t : Text) : precedes s t || precedes t s := by
  induction s generalizing t with
  | nil => simp [precedes]
  | cons c s ih =>
    cases t with
    | nil => simp [precedes]
    | cons d t =>
      rcases Nat.lt_trichotomy c.toNat d.toNat with h | h | h
      · simp [precedes, h]
      · have hcd : c = d := Char.toNat_inj.1 h
        simpa [precedes, hcd] using ih t
      · simp [precedes, h]

end Text

end Keymap

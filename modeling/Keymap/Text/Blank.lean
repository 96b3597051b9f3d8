import Keymap.Text.Basic

/-!
White space as Unicode defines it, the trimming of texts, and their division into lines.
-/
namespace Keymap.Text

/-- The characters with the property White_Space. -/
def isBlank (c : Char) : Bool :=
  let n := c.toNat
  (9 ≤ n && n ≤ 13) || n == 0x20 || n == 0x85 || n == 0xa0 || n == 0x1680 ||
    (0x2000 ≤ n && n ≤ 0x200a) || n == 0x2028 || n == 0x2029 || n == 0x202f || n == 0x205f ||
    n == 0x3000

def trimStart (s : Text) : Text := s.dropWhile isBlank

def trimEnd (s : Text) : Text := (s.reverse.dropWhile isBlank).reverse

/-- The text without the white space at its two ends. -/
def trim (s : Text) : Text := trimEnd (trimStart s)

/-- The pieces between newlines. A carriage return before a newline stays at the end of its piece,
where trimming removes it; after a last newline there is one more piece, which is empty. -/
def lines (s : Text) : List Text := s.splitOn '\n'

end Keymap.Text

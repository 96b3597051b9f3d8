import Keymap.Text.Basic
import Keymap.Text.Hidden

/-!
The quoted form of a text in diagnostics: between double quotes, with escapes for quotes, for
backslashes and for every character that would not show.
-/
namespace Keymap.Text

/-- An escape by code point, such as `\u{301}` for a combining acute accent. -/
def codePointEscape (c : Char) : Text :=
  "\\u\x7b".toList ++ Nat.toDigits 16 c.toNat ++ "\x7d".toList

def escapeChar (c : Char) : Text :=
  match c with
  | '\x00' => "\\0".toList
  | '\t' => "\\t".toList
  | '\r' => "\\r".toList
  | '\n' => "\\n".toList
  | '"' => "\\\"".toList
  | '\\' => "\\\\".toList
  | _ => if isHidden c then codePointEscape c else [c]

def quoted (s : Text) : Text := '"' :: s.flatMap escapeChar ++ ['"']

/-- The quoted form of a path, where apostrophes have an escape too. -/
def quotedPath (s : Text) : Text :=
  '"' :: s.flatMap (fun c => if c = '\x27' then ['\\', c] else escapeChar c) ++ ['"']

/-- A list in brackets. -/
def bracketed (parts : List Text) : Text := '[' :: join ", ".toList parts ++ [']']

end Keymap.Text

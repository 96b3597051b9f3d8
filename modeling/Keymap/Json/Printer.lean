import Keymap.Bindings.Basic

/-!
The two written forms of patterns by category in JSON: compact, without any white space, and pretty,
with each element on a line of its own.
-/
namespace Keymap.Json

/-- The escape of a character in a string: a short one if there is one, a code unit for the other
controls, none for everything else. -/
def escapeChar (c : Char) : Text :=
  match c with
  | '"' => "\\\"".toList
  | '\\' => "\\\\".toList
  | '\x08' => "\\b".toList
  | '\x0c' => "\\f".toList
  | '\n' => "\\n".toList
  | '\r' => "\\r".toList
  | '\t' => "\\t".toList
  | _ =>
    if c.toNat < 0x20 then
      "\\u00".toList ++ [Nat.digitChar (c.toNat / 16), Nat.digitChar (c.toNat % 16)]
    else [c]

def quote (s : Text) : Text := '"' :: s.flatMap escapeChar ++ ['"']

/-- Texts as a list of strings. -/
def compactList (texts : List Text) : Text :=
  '[' :: Text.join [','] (texts.map quote) ++ [']']

/-- A table of texts as an object with a field for each category, in the order of dispatch. -/
def compact (config : Config) : Text :=
  let field (entry : Category × List Text) : Text :=
    quote entry.1.name ++ ':' :: compactList entry.2
  '\x7b' :: Text.join [','] (config.toList.map field) ++ ['\x7d']

/-- A new line at a depth of nesting, two spaces for each level. -/
def newline (depth : Nat) : Text := '\n' :: List.replicate (2 * depth) ' '

/-- Items between brackets, each on a line of its own one level deeper. Without items the brackets
stand together. -/
def block (depth : Nat) (opening closing : Char) (items : List Text) : Text :=
  if items.isEmpty then [opening, closing]
  else
    opening :: Text.join [','] (items.map (newline (depth + 1) ++ ·)) ++ newline depth ++ [closing]

def pretty (config : Config) : Text :=
  let field (entry : Category × List Text) : Text :=
    quote entry.1.name ++ ": ".toList ++ block 1 '[' ']' (entry.2.map quote)
  block 0 '\x7b' '\x7d' (config.toList.map field)

end Keymap.Json

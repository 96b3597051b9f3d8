import Keymap.Text.Basic

/-!
Texts as bytes in UTF-8. Main statement: what is encoded is decoded to itself.
-/
namespace Keymap.Text

def encode (s : Text) : ByteArray := (String.ofList s).toUTF8

/-- The text of the bytes, if they are valid UTF-8. -/
def decode? (bytes : ByteArray) : Option Text := bytes.utf8Decode?.map Array.toList

theorem decode?_encode (s : Text) : decode? (encode s) = some s := by
  simp [decode?, encode, List.utf8Decode?_utf8Encode]

end Keymap.Text

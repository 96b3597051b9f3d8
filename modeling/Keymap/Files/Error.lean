import Keymap.Text.Basic

/-!
Failures of the file system, as far as configuration files meet them.
-/
namespace Keymap

inductive FileError where
  | notFound
  | alreadyExists
  | notDirectory
  | isDirectory
  /-- The content is no text. -/
  | notUtf8
  /-- Any other failure, in the words of the system. -/
  | other (reason : Text)
  deriving DecidableEq

def FileError.message : FileError → Text
  | .notFound => "No such file or directory (os error 2)".toList
  | .alreadyExists => "File exists (os error 17)".toList
  | .notDirectory => "Not a directory (os error 20)".toList
  | .isDirectory => "Is a directory (os error 21)".toList
  | .notUtf8 => "stream did not contain valid UTF-8".toList
  | .other reason => reason

end Keymap

import Keymap.Pattern
import Keymap.Category

/-!
What can be wrong with patterns by category.
-/
namespace Keymap

inductive BindingError where
  /-- A pattern of the category stands for no chord. -/
  | invalidPattern (category : Category) (pattern : Text) (cause : PatternError)
  /-- No category has this name. -/
  | unknownCategory (name : Text)
  deriving DecidableEq

def BindingError.message : BindingError → Text
  | .invalidPattern category pattern cause =>
    "invalid key pattern '".toList ++ pattern ++ "' for ".toList ++ category.name ++ ": ".toList ++
      cause.message
  | .unknownCategory name => "unknown binding category '".toList ++ name ++ "'".toList

end Keymap

import Keymap.Chord
import Keymap.Category

/-!
Bindings, the chords of every category, and what they say about a key press.
-/
namespace Keymap

abbrev Bindings := ByCategory ChordList

namespace Bindings

/-- The chords of a category that is not configured. Inserting a newline and submitting have none:
what they do without configuration is up to the shell. -/
def defaultChords : Category → ChordList
  | .commitCompletion =>
    [.named .enter {}, .named .tab {}, .named .space {}, .literal '.', .literal '(']
  | .triggerCompletionList =>
    [.named .space { control := true }, .named (.letter 'J') { control := true }]
  | .insertNewline => []
  | .submitInput => []

def default : Bindings := ByCategory.ofFun defaultChords

/-- Whether the press triggers the category. -/
def matchesPress (bindings : Bindings) (press : KeyPress) (c : Category) : Bool :=
  (bindings.get c).matchesPress press

/-- The first of the given categories that the press triggers. -/
def dispatch (bindings : Bindings) (press : KeyPress) (priority : List Category) :
    Option Category :=
  priority.find? (bindings.matchesPress press)

/-- The patterns that are shown for the chords. -/
def patterns (bindings : Bindings) : Config :=
  ByCategory.ofFun fun c => (bindings.get c).map Chord.display

end Bindings

end Keymap

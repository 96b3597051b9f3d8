import Keymap.Event
import Keymap.Logged

/-!
The assembly of bindings from patterns. It is all or nothing: the first pattern that stands for no
chord fails the whole, and only a category without configured chords falls back to its default.
-/
namespace Keymap

namespace Category

/-- The chord of one pattern of the category. -/
def chordOf (c : Category) (pattern : Text) : Except BindingError Chord :=
  (Pattern.chord pattern).mapError (.invalidPattern c pattern)

/-- The configured chords of the category's patterns, in their order; blank patterns give none. -/
def chordsOf (c : Category) (patterns : List Text) : Except BindingError ChordList := do
  let chords ← patterns.mapM c.chordOf
  return chords.filter Chord.isConfigured

/-- The chords that the category gets from its patterns, on record. -/
def assemble (c : Category) (patterns : List Text) :
    ExceptT BindingError (Logged Event) ChordList :=
  ExceptT.mk <| match c.chordsOf patterns with
    | .error cause => ⟨[], .error cause⟩
    | .ok [] => ⟨[.defaultsUsed c], .ok (Bindings.defaultChords c)⟩
    | .ok chords => ⟨[.patternsConfigured c chords.length], .ok chords⟩

end Category

namespace Bindings

/-- Assembles the categories one after the other and records each one that succeeds. -/
def assemble (config : Config) : ExceptT BindingError (Logged Event) Bindings :=
  ByCategory.ofFunM fun c => c.assemble (config.get c)

/-- The bindings of a configuration. -/
def build (config : Config) : Except BindingError Bindings := (assemble config).run.value

end Bindings

end Keymap

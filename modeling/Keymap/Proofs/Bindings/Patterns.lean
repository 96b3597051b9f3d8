import Keymap.Proofs.Bindings.Assembly

/-! # Bindings from the patterns they are shown by

The patterns shown for assembled bindings are a configuration of these bindings. A
category without chords has no patterns to show, and it has no default either, so
assembly leaves it empty again.
-/
namespace Keymap

namespace Category

theorem chordsOf_map_display (c : Category) {chords : ChordList}
    (h : ∀ chord ∈ chords, chord.IsReadable ∧ chord.isConfigured) :
    c.chordsOf (chords.map Chord.display) = .ok chords := by
  rw [chordsOf, Traversal.bind_pure, Traversal.map_eq_ok_iff]
  refine ⟨chords, ?_, List.filter_eq_self.2 fun chord hc => (h chord hc).2⟩
  rw [Traversal.mapM_eq_ok_iff, List.forall₂_map_left_iff, List.forall₂_same]
  intro chord hc
  exact chordOf_eq_ok_iff.2 (Pattern.chord_display (h chord hc).1)

end Category

namespace Bindings

/-- A category can be without chords only if it has no default. -/
theorem Assembled.defaultChords_eq_nil {b : Bindings} (h : b.Assembled) {c : Category}
    (hnil : b.get c = []) : defaultChords c = [] := by
  cases h with
  | default =>
    rw [Bindings.default, ByCategory.get_ofFun] at hnil
    exact hnil
  | built h =>
    obtain ⟨chords, -, hget⟩ := Traversal.map_eq_ok_iff.1 (build_eq_ok_iff.1 h c)
    rw [hnil, Category.orDefault] at hget
    split at hget
    · exact hget
    · contradiction

theorem build_patterns {b : Bindings} (h : b.Assembled) : build b.patterns = .ok b := by
  rw [build_eq_ok_iff]
  intro c
  rw [patterns, ByCategory.get_ofFun, c.chordsOf_map_display (h.wellFormed c)]
  refine congrArg Except.ok ?_
  rw [Category.orDefault]
  split
  · next hnil => rw [h.defaultChords_eq_nil hnil, hnil]
  · rfl

end Bindings

end Keymap

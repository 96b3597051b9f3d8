import Keymap.Proofs.Bindings.Outcome
import Keymap.Proofs.Conflict.Dispatch

/-! # Patterns fire where they are bound

The press that a chord describes triggers this chord alone, so what it triggers can be read
off the bindings. Main statement: the press of a pattern triggers the categories that bind its
chord and no others, and dispatch leads to the first of these.
-/
namespace Keymap

namespace Category

theorem mem_orDefault {c : Category} {chords : ChordList} {chord : Chord} (h : chord ∈ chords) :
    chord ∈ c.orDefault chords := by
  rw [orDefault, if_neg (List.ne_nil_of_mem h)]
  exact h

end Category

namespace Bindings

variable {b : Bindings} {config : Config} {press : KeyPress} {chord : Chord}

/-- A pattern that is not blank binds its chord. -/
theorem exists_mem_get_of_mem_config (hb : build config = .ok b) {c : Category} {p : Text}
    (hp : p ∈ config.get c) (hblank : ¬ Pattern.isBlank p) :
    ∃ chord, Pattern.chord p = .ok chord ∧ chord.isConfigured ∧ chord ∈ b.get c := by
  obtain ⟨chord, hchord⟩ := exists_build_eq_ok_iff.1 ⟨b, hb⟩ c p hp
  have hconf : chord.isConfigured := by
    rw [Pattern.isBlank_eq_not_isConfigured hchord] at hblank
    simpa using hblank
  obtain ⟨chords, hchords, hget⟩ := Traversal.map_eq_ok_iff.1 (build_eq_ok_iff.1 hb c)
  have hmem : chord ∈ chords := (Category.mem_chordsOf_iff hchords).2 ⟨hconf, p, hp, hchord⟩
  exact ⟨chord, hchord, hconf, hget ▸ Category.mem_orDefault hmem⟩

/-- No category that the press triggers stands before the one that dispatch leads to. -/
theorem idxOf_le_of_dispatch {priority : List Category} {first c : Category}
    (h : b.dispatch press priority = some first) (hc : b.matchesPress press c) :
    priority.idxOf first ≤ priority.idxOf c := by
  obtain ⟨hfirst, before, after, rfl, hbefore⟩ := List.find?_eq_some_iff_append.1 h
  have hnot {d : Category} (hd : b.matchesPress press d) : d ∉ before := by
    intro hmem
    simpa [hd] using hbefore d hmem
  rw [List.idxOf_append_of_notMem (hnot hfirst), List.idxOf_append_of_notMem (hnot hc),
    List.idxOf_cons_self]
  exact Nat.le_add_right _ _

/-- Where a category binds the chord, dispatch of its press leads to the first one that does. -/
theorem exists_dispatch_press? (hpress : chord.press? = some press) {c : Category}
    (hc : chord ∈ b.get c) :
    ∃ first, b.dispatch press Category.all = some first ∧ chord ∈ b.get first ∧
      ∀ j, chord ∈ b.get j → Category.all.idxOf first ≤ Category.all.idxOf j := by
  have hmatch := matchesPress_press?_iff (b := b) hpress
  have hsome : (b.dispatch press Category.all).isSome :=
    List.find?_isSome.2 ⟨c, Category.mem_all c, (hmatch c).2 hc⟩
  obtain ⟨first, hfirst⟩ := Option.isSome_iff_exists.1 hsome
  refine ⟨first, hfirst, (hmatch first).1 (List.find?_some hfirst), ?_⟩
  intro j hj
  exact idxOf_le_of_dispatch hfirst ((hmatch j).2 hj)

/-- Every pattern fires exactly where it is bound. The press of a configured chord triggers this
chord and no other. So the press of a pattern that is not blank triggers the categories that bind
its chord and no others, the pattern's own category among them, and in the order of dispatch leads
to the first of these, which is never one after the pattern's own. -/
theorem fires_of_mem_config :
    (∀ d : Chord, d.isConfigured → ∃ press, d.press? = some press ∧
      ∀ c : Chord, c.matchesPress press ↔ c = d) ∧
    ∀ (config : Config) (b : Bindings), build config = .ok b →
      ∀ k, ∀ p ∈ config.get k, ¬ Pattern.isBlank p →
        ∃ chord press, Pattern.chord p = .ok chord ∧ chord.press? = some press ∧
          (∀ j, b.matchesPress press j ↔ chord ∈ b.get j) ∧ chord ∈ b.get k ∧
          ∃ first, b.dispatch press Category.all = some first ∧ chord ∈ b.get first ∧
            ∀ j, chord ∈ b.get j → Category.all.idxOf first ≤ Category.all.idxOf j := by
  constructor
  · intro d hd
    obtain ⟨press, hpress⟩ := Chord.exists_press?_of_isConfigured hd
    exact ⟨press, hpress, fun c => Chord.matchesPress_press?_iff hpress⟩
  · intro config b hb k p hp hblank
    obtain ⟨chord, hchord, hconf, hk⟩ := exists_mem_get_of_mem_config hb hp hblank
    obtain ⟨press, hpress⟩ := Chord.exists_press?_of_isConfigured hconf
    exact ⟨chord, press, hchord, hpress, matchesPress_press?_iff hpress, hk,
      exists_dispatch_press? hpress hk⟩

/-- A pattern of the last category, whose chord the first category binds as well. -/
theorem fires_enterTwice :
    build enterTwice = .ok enterTwiceBindings ∧
    "return".toList ∈ enterTwice.get .submitInput ∧ ¬ Pattern.isBlank "return".toList ∧
    Pattern.chord "return".toList = .ok (.named .enter {}) ∧
    (∀ j, enterTwiceBindings.matchesPress (.ofKey .enter) j ↔
      Chord.named .enter {} ∈ enterTwiceBindings.get j) ∧
    enterTwiceBindings.dispatch (.ofKey .enter) Category.all = some .commitCompletion := by
  have hbuild : build enterTwice = .ok enterTwiceBindings := by decide +kernel
  have hmem : "return".toList ∈ enterTwice.get .submitInput := by decide
  have hblank : ¬ Pattern.isBlank "return".toList := by decide
  have hreturn : Pattern.chord "return".toList = .ok (.named .enter {}) := by decide +kernel
  obtain ⟨chord, press, hchord, hpress, hmatch, -, first, hfirst, -, hle⟩ :=
    fires_of_mem_config.2 _ _ hbuild _ _ hmem hblank
  obtain rfl := Except.ok.inj (hreturn.symm.trans hchord)
  obtain rfl := Option.some.inj hpress
  have hrank := hle .commitCompletion (by decide)
  refine ⟨hbuild, hmem, hblank, hreturn, hmatch, ?_⟩
  cases first with
  | commitCompletion => exact hfirst
  | _ => exact absurd hrank (by decide)

end Bindings

end Keymap

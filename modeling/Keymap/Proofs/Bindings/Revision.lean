import Keymap.Proofs.Bindings.Outcome
import Keymap.Proofs.Conflict.Pairs

/-! # Patterns in another order

The patterns of a category are alternatives. Main statement: their order, repeated patterns
and blank ones among them make no difference to which presses trigger what, to the conflicts
that are reported and to the number of bindings.
-/
namespace Keymap

namespace Pattern

/-- A change of the patterns of a category that brings in repeated and blank patterns only. -/
inductive Revises : List Text → List Text → Prop
  | order {ps qs : List Text} (h : ps.Perm qs) : Revises ps qs
  | repetition {ps : List Text} {p : Text} (h : p ∈ ps) : Revises ps (p :: ps)
  | blank {ps : List Text} {p : Text} (h : isBlank p) : Revises ps (p :: ps)

/-- The second list comes from the first by such changes and by undoing them. -/
def Revised : List Text → List Text → Prop := Relation.EqvGen Revises

theorem Revises.mem_iff {ps qs : List Text} (h : Revises ps qs) {p : Text} (hp : ¬ isBlank p) :
    p ∈ ps ↔ p ∈ qs := by
  cases h with
  | order h => exact h.mem_iff
  | repetition h =>
    rw [List.mem_cons, or_iff_right_of_imp]
    rintro rfl
    exact h
  | blank h =>
    rw [List.mem_cons, or_iff_right]
    rintro rfl
    exact hp h

theorem Revised.mem_iff {ps qs : List Text} (h : Revised ps qs) {p : Text} (hp : ¬ isBlank p) :
    p ∈ ps ↔ p ∈ qs := by
  induction h with
  | rel _ _ h => exact h.mem_iff hp
  | refl _ => rfl
  | symm _ _ _ ih => exact ih.symm
  | trans _ _ _ _ _ ih ih' => exact ih.trans ih'

theorem chord_of_isBlank {p : Text} (h : isBlank p) : chord p = .ok .unconfigured :=
  chord_eq_unconfigured_iff.2 (List.all_eq_true.1 h)

/-- The chords of patterns that are not blank are the same. -/
theorem Revised.exists_chord_iff {ps qs : List Text} (h : Revised ps qs) {c : Chord}
    (hc : c.isConfigured) : (∃ p ∈ ps, chord p = .ok c) ↔ ∃ q ∈ qs, chord q = .ok c := by
  apply exists_congr
  intro p
  apply and_congr_left
  intro hp
  apply h.mem_iff
  rw [isBlank_eq_not_isConfigured hp, hc]
  decide

theorem Revised.readable_iff {ps qs : List Text} (h : Revised ps qs) :
    (∀ p ∈ ps, ∃ c, chord p = .ok c) ↔ ∀ q ∈ qs, ∃ c, chord q = .ok c := by
  apply forall_congr'
  intro p
  by_cases hp : isBlank p
  · simp [chord_of_isBlank hp]
  · rw [h.mem_iff hp]

end Pattern

def Config.Revised (config other : Config) : Prop :=
  ∀ c, Pattern.Revised (config.get c) (other.get c)

namespace Category

/-- Whether the default is in force does not depend on the order of the configured chords. -/
theorem mem_orDefault_congr {c : Category} {chords others : ChordList}
    (h : ∀ chord, chord ∈ chords ↔ chord ∈ others) (chord : Chord) :
    chord ∈ c.orDefault chords ↔ chord ∈ c.orDefault others := by
  have hnil : chords = [] ↔ others = [] := by
    simp only [List.eq_nil_iff_forall_not_mem, h]
  rw [orDefault, orDefault]
  by_cases hchords : chords = []
  · rw [if_pos hchords, if_pos (hnil.1 hchords)]
  · rw [if_neg hchords, if_neg (mt hnil.2 hchords), h]

end Category

namespace Bindings

variable {b other : Bindings} {config revised : Config}

def SameChords (b other : Bindings) : Prop := ∀ c chord, chord ∈ b.get c ↔ chord ∈ other.get c

theorem SameChords.matchesPress_eq (h : b.SameChords other) (press : KeyPress) (c : Category) :
    b.matchesPress press c = other.matchesPress press c := by
  rw [Bool.eq_iff_iff, matchesPress_iff, matchesPress_iff]
  simp only [h c]

theorem SameChords.dispatch_eq (h : b.SameChords other) (press : KeyPress)
    (priority : List Category) : b.dispatch press priority = other.dispatch press priority :=
  List.find?_congr fun c _ => h.matchesPress_eq press c

theorem SameChords.mem_conflicts_iff (h : b.SameChords other) (x : Conflict) :
    x ∈ b.conflicts ↔ x ∈ other.conflicts := by
  rw [mem_conflicts, mem_conflicts, users, users]
  simp only [h _ x.chord]

/-- The report is settled by the conflicts alone, of which there are the same. -/
theorem SameChords.conflicts_eq (h : b.SameChords other) (hother : other.WellFormed) :
    b.conflicts = other.conflicts := by
  have hb := ChordUses.reports_conflicts (ChordUses.ofBindings b)
  have hreports := ChordUses.reports_conflicts (ChordUses.ofBindings other)
  have hnodup := (hb.nodup (ChordUses.wellFormed_ofBindings b)).of_map
  have hnodup' := (hreports.nodup (ChordUses.wellFormed_ofBindings other)).of_map
  have hperm := (List.perm_ext_iff_of_nodup hnodup hnodup').2 h.mem_conflicts_iff
  exact (reports_iff hother).1 ⟨hperm.trans hreports.perm, hb.sorted⟩

theorem SameChords.total_eq (h : b.SameChords other) :
    (ChordUses.ofBindings b).total = (ChordUses.ofBindings other).total := by
  have hset : b.pairs.toFinset = other.pairs.toFinset := by
    ext ⟨chord, c⟩
    rw [List.mem_toFinset, List.mem_toFinset, mem_pairs, mem_pairs, h]
  rw [ofBindings_eq_ofPairs, ofBindings_eq_ofPairs, (ChordUses.Represents.ofPairs _).total,
    (ChordUses.Represents.ofPairs _).total, hset]

theorem sameChords_of_revised (h : config.Revised revised) (hb : build config = .ok b)
    (hother : build revised = .ok other) : b.SameChords other := by
  intro c chord
  obtain ⟨chords, hchords, hget⟩ := Traversal.map_eq_ok_iff.1 (build_eq_ok_iff.1 hb c)
  obtain ⟨others, hothers, hget'⟩ := Traversal.map_eq_ok_iff.1 (build_eq_ok_iff.1 hother c)
  rw [← hget, ← hget']
  apply Category.mem_orDefault_congr
  intro chord
  rw [Category.mem_chordsOf_iff hchords, Category.mem_chordsOf_iff hothers]
  exact and_congr_right fun hchord => (h c).exists_chord_iff hchord

/-- Nothing depends on the order of the patterns of a category, on repeated patterns or on blank
ones. A revised configuration is built if and only if the first one is, and then every press
triggers the same categories, whatever order of dispatch is asked for leads to the same category,
the conflicts are reported in the same way, and the number of bindings is the same. -/
theorem answers_eq_of_revised (h : config.Revised revised) :
    ((∃ b, build config = .ok b) ↔ ∃ b, build revised = .ok b) ∧
    ∀ b other, build config = .ok b → build revised = .ok other →
      (∀ press c, b.matchesPress press c = other.matchesPress press c) ∧
      (∀ press priority, b.dispatch press priority = other.dispatch press priority) ∧
      b.conflicts = other.conflicts ∧
      (ChordUses.ofBindings b).total = (ChordUses.ofBindings other).total := by
  constructor
  · rw [exists_build_eq_ok_iff, exists_build_eq_ok_iff]
    exact forall_congr' fun c => (h c).readable_iff
  · intro b other hb hother
    have hsame := sameChords_of_revised h hb hother
    exact ⟨hsame.matchesPress_eq, hsame.dispatch_eq,
      hsame.conflicts_eq (wellFormed_of_build hother), hsame.total_eq⟩

def plain : Config :=
  { Config.empty with
    commitCompletion := [" ".toList]
    submitInput := ["Enter".toList, "F5".toList] }

def cluttered : Config :=
  { Config.empty with
    submitInput := ["F5".toList, [], "Enter".toList, "F5".toList] }

theorem revised_cluttered : plain.Revised cluttered := by
  intro c
  cases c with
  | commitCompletion => exact .symm _ _ (.rel _ _ (.blank (by decide)))
  | triggerCompletionList | insertNewline => exact .refl _
  | submitInput =>
    have hrepeated : Pattern.Revised ["Enter".toList, "F5".toList]
        ["F5".toList, "Enter".toList, "F5".toList] :=
      .rel _ _ (.repetition (by decide))
    have hblank : Pattern.Revised ["F5".toList, "Enter".toList, "F5".toList]
        [[], "F5".toList, "Enter".toList, "F5".toList] :=
      .rel _ _ (.blank rfl)
    have hordered : Pattern.Revised [[], "F5".toList, "Enter".toList, "F5".toList]
        ["F5".toList, [], "Enter".toList, "F5".toList] :=
      .rel _ _ (.order (.swap _ _ _))
    exact (hrepeated.trans _ _ _ hblank).trans _ _ _ hordered

/-- The default of the first category is in force with and without the blank pattern, and it has a
key in common with the last one. -/
theorem answers_eq_of_revised_cluttered :
    plain.Revised cluttered ∧
    ∃ b other, build plain = .ok b ∧ build cluttered = .ok other ∧ b ≠ other ∧
      (∀ press priority, b.dispatch press priority = other.dispatch press priority) ∧
      b.dispatch (.ofKey .enter) Category.all = some .commitCompletion ∧
      ⟨.named .enter {}, [.commitCompletion, .submitInput]⟩ ∈ b.conflicts ∧
      b.conflicts = other.conflicts ∧
      (ChordUses.ofBindings b).total = (ChordUses.ofBindings other).total := by
  have hplain : build plain = .ok { default with
      submitInput := [.named .enter {}, .named (.function 5) {}] } := by
    decide +kernel
  have hcluttered : build cluttered = .ok { default with
      submitInput := [.named (.function 5) {}, .named .enter {}, .named (.function 5) {}] } := by
    decide +kernel
  obtain ⟨-, hanswers⟩ := answers_eq_of_revised revised_cluttered
  obtain ⟨-, hdispatch, hconflicts, htotal⟩ := hanswers _ _ hplain hcluttered
  exact ⟨revised_cluttered, _, _, hplain, hcluttered, by decide, hdispatch, by decide,
    mem_conflicts.2 (by decide +kernel), hconflicts, htotal⟩

end Bindings

end Keymap

import Keymap.Bindings.Assembly
import Keymap.Proofs.Pattern.RoundTrip
import Keymap.Proofs.Traversal

/-! # What assembled bindings hold

Assembly without its record, category by category, and the invariant of every
set of bindings that it makes: each chord is one that a pattern stands for.
-/
namespace Keymap

theorem Logged.value_run_bind {ω ε α β : Type} (x : ExceptT ε (Logged ω) α)
    (f : α → ExceptT ε (Logged ω) β) :
    (x >>= f).run.value = x.run.value >>= fun a => (f a).run.value := by
  rw [ExceptT.run_bind, Logged.value_bind]
  cases x.run.value <;> rfl

namespace ByCategory

theorem ofFunM_eq_ok_iff {ε α : Type} {f : Category → Except ε α} {t : ByCategory α} :
    ofFunM f = .ok t ↔ ∀ c, f c = .ok (t.get c) := by
  rw [ofFunM]
  simp only [Traversal.bind_eq_ok_iff]
  constructor
  · rintro ⟨a, ha, b, hb, d, hd, e, he, ht⟩ c
    obtain rfl := Except.ok.inj ht
    cases c <;> assumption
  · intro h
    exact ⟨_, h .commitCompletion, _, h .triggerCompletionList, _, h .insertNewline, _,
      h .submitInput, rfl⟩

theorem ofFunM_eq_error_iff {ε α : Type} {f : Category → Except ε α} {e : ε} :
    ofFunM f = .error e ↔ Category.all.mapM f = .error e := by
  simp [ofFunM, Category.all, Traversal.bind_eq_error_iff, pure, Except.pure]

theorem value_run_ofFunM {ω ε α : Type} (f : Category → ExceptT ε (Logged ω) α) :
    (ofFunM f).run.value = ofFunM fun c => (f c).run.value := by
  simp only [ofFunM, Logged.value_run_bind]
  rfl

end ByCategory

namespace Category

def orDefault (c : Category) (chords : ChordList) : ChordList :=
  if chords = [] then Bindings.defaultChords c else chords

theorem value_assemble (c : Category) (patterns : List Text) :
    (c.assemble patterns).run.value = (c.chordsOf patterns).map c.orDefault := by
  rw [assemble, ExceptT.run_mk]
  match c.chordsOf patterns with
  | .error cause => rfl
  | .ok [] => rfl
  | .ok (_ :: _) => rfl

theorem chordOf_eq_ok_iff {c : Category} {pattern : Text} {chord : Chord} :
    c.chordOf pattern = .ok chord ↔ Pattern.chord pattern = .ok chord := by
  rw [chordOf]
  cases Pattern.chord pattern <;> simp [Except.mapError]

theorem mem_chordsOf_iff {c : Category} {patterns : List Text} {chords : ChordList}
    (h : c.chordsOf patterns = .ok chords) {chord : Chord} :
    chord ∈ chords ↔ chord.isConfigured ∧ ∃ p ∈ patterns, Pattern.chord p = .ok chord := by
  rw [chordsOf, Traversal.bind_pure, Traversal.map_eq_ok_iff] at h
  obtain ⟨all, hall, rfl⟩ := h
  rw [List.mem_filter, and_comm]
  apply and_congr_right
  intro _
  simp only [← chordOf_eq_ok_iff (c := c)]
  constructor
  · exact Traversal.exists_of_mem_mapM hall
  · rintro ⟨p, hp, hchord⟩
    have hchords := Traversal.mapM_eq_ok_iff.1 hall
    obtain ⟨other, hother, hp'⟩ := Traversal.exists_mem_of_forall₂ hchords hp
    rw [hchord] at hp'
    rwa [Except.ok.inj hp']

theorem isReadable_of_mem_chordsOf {c : Category} {patterns : List Text} {chords : ChordList}
    (h : c.chordsOf patterns = .ok chords) {chord : Chord} (hc : chord ∈ chords) :
    chord.IsReadable ∧ chord.isConfigured := by
  obtain ⟨hconf, p, -, hp⟩ := (mem_chordsOf_iff h).1 hc
  exact ⟨Pattern.isReadable_of_chord hp, hconf⟩

end Category

namespace Bindings

/-- Every chord is one that a pattern stands for, and none is the unconfigured one. -/
def WellFormed (b : Bindings) : Prop :=
  ∀ c, ∀ chord ∈ b.get c, chord.IsReadable ∧ chord.isConfigured

theorem wellFormed_defaultChords (c : Category) :
    ∀ chord ∈ defaultChords c, chord.IsReadable ∧ chord.isConfigured := by
  cases c <;> simp [defaultChords, Chord.IsReadable, Chord.isConfigured] <;> decide

theorem wellFormed_default : default.WellFormed := by
  intro c
  rw [default, ByCategory.get_ofFun]
  exact wellFormed_defaultChords c

theorem build_eq_ok_iff {config : Config} {b : Bindings} :
    build config = .ok b ↔
      ∀ c : Category, (c.chordsOf (config.get c)).map c.orDefault = .ok (b.get c) := by
  rw [build, assemble, ByCategory.value_run_ofFunM, ByCategory.ofFunM_eq_ok_iff]
  simp only [Category.value_assemble]

theorem wellFormed_of_build {config : Config} {b : Bindings} (h : build config = .ok b) :
    b.WellFormed := by
  intro c chord hc
  obtain ⟨chords, hchords, hget⟩ := Traversal.map_eq_ok_iff.1 (build_eq_ok_iff.1 h c)
  rw [← hget, Category.orDefault] at hc
  split at hc
  · exact wellFormed_defaultChords c chord hc
  · exact Category.isReadable_of_mem_chordsOf hchords hc

/-- The bindings that a program can hold: the built-in ones and those built from configurations. -/
inductive Assembled : Bindings → Prop
  | default : Assembled default
  | built {config : Config} {b : Bindings} (h : build config = .ok b) : Assembled b

theorem Assembled.wellFormed {b : Bindings} (h : b.Assembled) : b.WellFormed := by
  cases h with
  | default => exact wellFormed_default
  | built h => exact wellFormed_of_build h

end Bindings

end Keymap

import Keymap.Proofs.Bindings.Assembly

/-! # What a configuration is built to

The bindings of a configuration, or the reason why it has none, are said of its
patterns: all of them have to stand for chords, and the first one that does not is the
reason. Main statement: assembly decides this, and a default is never put in the place of
a pattern that stands for nothing.
-/
namespace Keymap

namespace Pattern

def isBlank (s : Text) : Bool := s.all Text.isBlank

def Chords (patterns : List Text) (chords : ChordList) : Prop :=
  List.Forall₂ (fun p chord => Pattern.chord p = .ok chord) patterns chords

theorem isBlank_eq_not_isConfigured {s : Text} {chord : Chord} (h : Pattern.chord s = .ok chord) :
    isBlank s = !chord.isConfigured := by
  rw [Bool.eq_iff_iff, isBlank, List.all_eq_true, ← chord_eq_unconfigured_iff, h]
  cases chord <;> simp [Chord.isConfigured]

theorem exists_chords_iff {patterns : List Text} :
    (∃ chords, Chords patterns chords) ↔ ∀ p ∈ patterns, ∃ chord, Pattern.chord p = .ok chord :=
  Traversal.exists_forall₂_iff

theorem Chords.unique {patterns : List Text} {chords others : ChordList}
    (h : Chords patterns chords) (h' : Chords patterns others) : chords = others := by
  refine List.right_unique_forall₂' ?_ h h'
  intro p chord other hchord hother
  rw [hchord] at hother
  exact Except.ok.inj hother

/-- Blank patterns stand for the chords that are not configured. -/
theorem Chords.filter {patterns : List Text} {chords : ChordList} (h : Chords patterns chords) :
    Chords (patterns.filter fun p => !isBlank p) (chords.filter Chord.isConfigured) := by
  refine List.rel_filter ?_ h
  intro p chord hp
  simp [isBlank_eq_not_isConfigured hp]

end Pattern

open Pattern (Chords)

def Config.entries (config : Config) : List (Category × Text) :=
  Category.all.flatMap fun c => (config.get c).map fun pattern => (c, pattern)

theorem Config.mem_entries {config : Config} {c : Category} {pattern : Text} :
    (c, pattern) ∈ config.entries ↔ pattern ∈ config.get c := by
  simp [entries, Category.mem_all]

namespace Category

/-- What a category gets from its patterns: the chord of each pattern that is not blank, in their
order, and the default chords of the category if there is none. -/
inductive Gets (c : Category) (patterns : List Text) : ChordList → Prop
  | default (h : ∀ p ∈ patterns, Pattern.isBlank p) : Gets c patterns (Bindings.defaultChords c)
  | configured {chords} (hne : chords ≠ [])
      (h : Chords (patterns.filter fun p => !Pattern.isBlank p) chords) : Gets c patterns chords

theorem chordOf_eq_error_iff {c : Category} {pattern : Text} {e : BindingError} :
    c.chordOf pattern = .error e ↔
      ∃ cause, Pattern.chord pattern = .error cause ∧ e = .invalidPattern c pattern cause := by
  rw [chordOf]
  cases Pattern.chord pattern <;> simp [Except.mapError, eq_comm]

theorem chordsOf_eq_ok_iff {c : Category} {patterns : List Text} {chords : ChordList} :
    c.chordsOf patterns = .ok chords ↔
      (∀ p ∈ patterns, ∃ chord, Pattern.chord p = .ok chord) ∧
        Chords (patterns.filter fun p => !Pattern.isBlank p) chords := by
  rw [chordsOf, Traversal.bind_pure, Traversal.map_eq_ok_iff, ← Pattern.exists_chords_iff]
  simp only [Traversal.mapM_eq_ok_iff, chordOf_eq_ok_iff]
  constructor
  · rintro ⟨all, hall, rfl⟩
    exact ⟨⟨all, hall⟩, Chords.filter hall⟩
  · rintro ⟨⟨all, hall⟩, hchords⟩
    exact ⟨all, hall, (Chords.filter hall).unique hchords⟩

/-- No chord is left if and only if all patterns are blank. -/
theorem gets_iff {c : Category} {patterns : List Text} {chords : ChordList} :
    c.Gets patterns chords ↔
      ∃ configured, Chords (patterns.filter fun p => !Pattern.isBlank p) configured ∧
        c.orDefault configured = chords := by
  constructor
  · intro h
    cases h with
    | default h =>
      have hnil : (patterns.filter fun p => !Pattern.isBlank p) = [] := by simpa using h
      exact ⟨[], hnil ▸ .nil, rfl⟩
    | configured hne h => exact ⟨chords, h, if_neg hne⟩
  · rintro ⟨configured, h, rfl⟩
    by_cases hnil : configured = []
    · rw [hnil] at h ⊢
      have hblank := List.forall₂_nil_right_iff.1 h
      exact .default (by simpa using hblank)
    · rw [orDefault, if_neg hnil]
      exact .configured hnil h

theorem Gets.eq_default {c : Category} {patterns : List Text} {chords : ChordList}
    (h : c.Gets patterns chords) (hblank : ∀ p ∈ patterns, Pattern.isBlank p) :
    chords = Bindings.defaultChords c := by
  cases h with
  | default => rfl
  | configured hne h =>
    have hnil : (patterns.filter fun p => !Pattern.isBlank p) = [] := by simpa using hblank
    rw [hnil] at h
    exact absurd (List.forall₂_nil_left_iff.1 h) hne

end Category

namespace Bindings

/-- What a configuration is built to: the bindings that each category gets from its patterns, if all
patterns stand for chords, and else the first pattern that stands for none, with its category and
the reason. -/
inductive Outcome (config : Config) : Except BindingError Bindings → Prop
  | built {b} (h : ∀ c, ∀ p ∈ config.get c, ∃ chord, Pattern.chord p = .ok chord)
      (hgets : ∀ c : Category, c.Gets (config.get c) (b.get c)) : Outcome config (.ok b)
  | rejected {before c p after cause} (h : config.entries = before ++ (c, p) :: after)
      (hbefore : ∀ entry ∈ before, ∃ chord, Pattern.chord entry.2 = .ok chord)
      (hp : Pattern.chord p = .error cause) : Outcome config (.error (.invalidPattern c p cause))

theorem build_eq_ok_iff_gets {config : Config} {b : Bindings} :
    build config = .ok b ↔
      (∀ c, ∀ p ∈ config.get c, ∃ chord, Pattern.chord p = .ok chord) ∧
        ∀ c : Category, c.Gets (config.get c) (b.get c) := by
  rw [build_eq_ok_iff, ← forall_and]
  simp only [Traversal.map_eq_ok_iff, Category.chordsOf_eq_ok_iff, Category.gets_iff, and_assoc,
    exists_and_left]

/-- The first failure, category by category and pattern by pattern, is the first one of all entries
in a row. -/
theorem build_eq_error_iff {config : Config} {e : BindingError} :
    build config = .error e ↔
      config.entries.mapM (fun entry => entry.1.chordOf entry.2) = .error e := by
  rw [build, assemble, ByCategory.value_run_ofFunM, ByCategory.ofFunM_eq_error_iff,
    Config.entries, Traversal.mapM_flatMap_eq_error_iff]
  apply Traversal.mapM_eq_error_congr
  intro c e
  rw [Category.value_assemble, Traversal.map_eq_error_iff, Category.chordsOf, Traversal.bind_pure,
    Traversal.map_eq_error_iff, List.mapM_map]
  rfl

theorem outcome_build (config : Config) : Outcome config (build config) := by
  cases hbuild : build config with
  | ok b =>
    obtain ⟨h, hgets⟩ := build_eq_ok_iff_gets.1 hbuild
    exact .built h hgets
  | error e =>
    obtain ⟨before, ⟨c, p⟩, after, hentries, hbefore, hp⟩ :=
      Traversal.mapM_eq_error_iff.1 (build_eq_error_iff.1 hbuild)
    obtain ⟨cause, hcause, rfl⟩ := Category.chordOf_eq_error_iff.1 hp
    simp only [Category.chordOf_eq_ok_iff] at hbefore
    exact .rejected hentries hbefore hcause

theorem exists_build_eq_ok_iff {config : Config} :
    (∃ b, build config = .ok b) ↔
      ∀ c, ∀ p ∈ config.get c, ∃ chord, Pattern.chord p = .ok chord := by
  constructor
  · rintro ⟨b, hb⟩
    exact (build_eq_ok_iff_gets.1 hb).1
  · intro h
    have houtcome := outcome_build config
    generalize build config = r at houtcome ⊢
    cases houtcome with
    | built => exact ⟨_, rfl⟩
    | @rejected before c p after cause hentries _ hp =>
      have hmem : p ∈ config.get c := Config.mem_entries.1 (by simp [hentries])
      obtain ⟨chord, hchord⟩ := h c p hmem
      rw [hp] at hchord
      cases hchord

theorem Outcome.build_eq {config : Config} {r : Except BindingError Bindings}
    (h : Outcome config r) : build config = r := by
  cases h with
  | built h hgets => exact build_eq_ok_iff_gets.2 ⟨h, hgets⟩
  | @rejected before c p after cause hentries hbefore hp =>
    rw [build_eq_error_iff, Traversal.mapM_eq_error_iff]
    simp only [Category.chordOf_eq_ok_iff]
    exact ⟨before, (c, p), after, hentries, hbefore,
      Category.chordOf_eq_error_iff.2 ⟨cause, hp, rfl⟩⟩

/-- Assembly is all or nothing. It gives bindings exactly if every pattern of every category stands
for a chord; each category then has the chords of its patterns that are not blank, repetitions
included, or its default chords if there is none. Otherwise it fails with the first pattern that
stands for nothing, in the order of the categories and of their patterns, with its category and the
reason. -/
theorem build_eq_iff_outcome (config : Config) :
    ((∃ b, build config = .ok b) ↔
        ∀ c, ∀ p ∈ config.get c, ∃ chord, Pattern.chord p = .ok chord) ∧
      ∀ r, build config = r ↔ Outcome config r := by
  refine ⟨exists_build_eq_ok_iff, ?_⟩
  intro r
  constructor
  · rintro rfl
    exact outcome_build config
  · exact Outcome.build_eq

/-- A malformed pattern among blank ones is no reason for a default, and of two the one of the first
category is reported. -/
example :
    build { Config.empty with
      commitCompletion := [" ".toList, [], "Enter".toList, "Enter".toList]
      insertNewline := ["\t".toList, "Hyper".toList]
      submitInput := ["Control".toList] } =
        .error (.invalidPattern .insertNewline "Hyper".toList (.unrecognized "Hyper".toList)) := by
  decide +kernel

end Bindings

end Keymap

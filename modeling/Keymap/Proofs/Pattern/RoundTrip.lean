import Keymap.Proofs.Pattern.Grammar
import Keymap.Proofs.Pattern.Parts

/-! # Showing chords and reading them back

The chords that patterns stand for are described without patterns, and each of
them is read from the text it is shown by. Other chords are not: `F30`, a key
for a small letter or the plus sign are shown by texts that mean something else
or nothing.
-/
namespace Keymap

theorem Modifiers.mem_toList (ms : Modifiers) (m : Modifier) : m ∈ ms.toList ↔ ms.has m = true := by
  rw [toList, List.mem_filter]
  exact and_iff_right (by cases m <;> decide)

theorem Modifiers.toList_eq_nil_iff (ms : Modifiers) : ms.toList = [] ↔ ms.isEmpty = true := by
  rw [List.eq_nil_iff_forall_not_mem, isEmpty_iff]
  simp only [mem_toList, Bool.not_eq_true]

theorem Text.join_append_singleton {separator : Text} {ts : List Text} (h : ts ≠ []) (t : Text) :
    join separator (ts ++ [t]) = join separator ts ++ separator ++ t := by
  induction ts with
  | nil => exact absurd rfl h
  | cons u ts ih =>
    cases ts with
    | nil => simp [join]
    | cons v ts =>
      have hrest := ih (List.cons_ne_nil v ts)
      rw [join, List.cons_append] at hrest
      rw [join, join, List.cons_append, List.cons_append, List.intercalate_cons_cons, hrest,
        List.intercalate_cons_cons, join]
      simp only [List.append_assoc]

theorem Key.display_ne_nil (k : Key) : k.display ≠ [] := by
  cases k with
  | function n => exact List.cons_ne_nil _ _
  | letter c => exact List.cons_ne_nil _ _
  | _ => decide

namespace Chord

/-- The chords that a pattern can stand for. -/
def IsReadable : Chord → Prop
  | .unconfigured => True
  | .named k _ => k.isNamed
  | .literal c => ¬ Text.isBlank c ∧ c ≠ '+' ∧ c.isAlpha = false

theorem display_named (k : Key) (ms : Modifiers) :
    (named k ms).display = Text.join ['+'] (ms.toList.map Modifier.name ++ [k.display]) := by
  by_cases h : ms.isEmpty = true
  · rw [display, if_pos h, ms.toList_eq_nil_iff.2 h]
    exact List.intercalate_singleton.symm
  · have hnames : ms.toList.map Modifier.name ≠ [] :=
      fun hn => h (ms.toList_eq_nil_iff.1 (List.map_eq_nil_iff.1 hn))
    rw [display, if_neg h, Text.join_append_singleton hnames, List.append_assoc]
    rfl

end Chord

namespace Pattern

theorem recognized_names (ms : List Modifier) :
    recognized (ms.map Modifier.name) = ms.map Part.modifier := by
  induction ms with
  | nil => rfl
  | cons m ms ih =>
    rw [recognized] at ih
    rw [List.map_cons, recognized, List.filterMap_cons, Part.ofText_name, List.map_cons, ih]
    rfl

theorem primaries_names (ms : List Modifier) : primaries (ms.map Modifier.name) = [] := by
  rw [primaries, recognized_names, List.filterMap_map, List.filterMap_eq_nil_iff]
  intro m _
  rfl

theorem modifiers_names (ms : List Modifier) : modifiers (ms.map Modifier.name) = ms := by
  rw [modifiers, recognized_names, List.filterMap_map]
  exact List.filterMap_some

theorem isAlphanum_of_mem_shown {k : Key} (h : k.isNamed) {ms : Modifiers} {t : Text}
    (ht : t ∈ ms.toList.map Modifier.name ++ [k.display]) {c : Char} (hc : c ∈ t) :
    c.isAlphanum = true := by
  rcases List.mem_append.1 ht with ht | ht
  · obtain ⟨m, -, rfl⟩ := List.mem_map.1 ht
    exact m.isAlphanum_of_mem_name c hc
  · rw [List.mem_singleton.1 ht] at hc
    exact Key.isAlphanum_of_mem_display h c hc

/-- The parts of the text shown are the names of the modifiers and the name of the key. -/
theorem parts_display {k : Key} (h : k.isNamed) (ms : Modifiers) :
    parts (Chord.named k ms).display = ms.toList.map Modifier.name ++ [k.display] := by
  have hplus : ∀ t ∈ ms.toList.map Modifier.name ++ [k.display], '+' ∉ t := by
    intro t ht hc
    exact absurd (isAlphanum_of_mem_shown h ht hc) (by decide)
  have htrim : ∀ t ∈ ms.toList.map Modifier.name ++ [k.display], Text.trim t = t := by
    intro t ht
    apply Text.trim_eq_self
    intro c hc
    exact Text.not_isBlank_of_isAlphanum (isAlphanum_of_mem_shown h ht hc)
  rw [parts, Chord.display_named, Text.join, List.splitOn_intercalate '+' hplus (by simp),
    List.map_congr_left htrim, List.map_id']

theorem not_faulty_shown {k : Key} (h : k.isNamed) (ms : Modifiers) :
    ¬ Faulty (ms.toList.map Modifier.name ++ [k.display]) := by
  rintro (⟨t, ht, hn⟩ | htwo)
  · rcases List.mem_append.1 ht with ht | ht
    · obtain ⟨m, -, rfl⟩ := List.mem_map.1 ht
      exact hn ⟨_, Part.ofText_name m⟩
    · rw [List.mem_singleton.1 ht] at hn
      exact hn ⟨_, Part.ofText_display h⟩
  · rw [primaries_append, primaries_names, primaries_singleton (Part.ofText_display h)] at htwo
    exact absurd htwo (by simp [Part.primary?])

theorem not_blank_display {k : Key} (h : k.isNamed) (ms : Modifiers) :
    ¬ ∀ c ∈ (Chord.named k ms).display, Text.isBlank c := by
  intro hall
  obtain ⟨c, cs, hc⟩ := List.exists_cons_of_ne_nil k.display_ne_nil
  have hmem : c ∈ k.display := hc ▸ List.mem_cons_self
  have hshown : c ∈ (Chord.named k ms).display := by
    rw [Chord.display]
    split
    · exact hmem
    · exact List.mem_append_right _ (List.mem_cons_of_mem _ hmem)
  exact Text.not_isBlank_of_isAlphanum (Key.isAlphanum_of_mem_display h c hmem) (hall c hshown)

theorem chord_display_named {k : Key} (h : k.isNamed) (ms : Modifiers) :
    chord (Chord.named k ms).display = .ok (.named k ms) := by
  have hparts := parts_display h ms
  have hprim : primaries (parts (Chord.named k ms).display) = [.inl k] := by
    rw [hparts, primaries_append, primaries_names, primaries_singleton (Part.ofText_display h)]
    rfl
  have hmod (m : Modifier) : ms.has m = true ↔
      ∃ t ∈ parts (Chord.named k ms).display, Part.ofText t = .ok (.modifier m) := by
    rw [← mem_modifiers, hparts, modifiers_append, modifiers_names,
      modifiers_singleton (Part.ofText_display h), ← Modifiers.mem_toList]
    exact (List.append_nil ms.toList).symm ▸ Iff.rfl
  have hfault : ¬ Faulty (parts (Chord.named k ms).display) := hparts ▸ not_faulty_shown h ms
  exact (StandsFor.named (not_blank_display h ms) hfault hprim hmod).chord_eq

theorem chord_display_literal {c : Char} (h : (Chord.literal c).IsReadable) :
    chord (Chord.literal c).display = .ok (.literal c) := by
  obtain ⟨hblank, hplus, halpha⟩ := h
  have hparts : parts [c] = [[c]] := by
    rw [parts, List.splitOn_eq_singleton (by simpa using Ne.symm hplus), List.map_singleton,
      Text.trim_eq_self (by simpa using hblank)]
  exact (StandsFor.literal (by simpa [Chord.display] using hblank) hparts
    (Part.ofText_singleton halpha)).chord_eq

theorem chord_display {c : Chord} (h : c.IsReadable) : chord c.display = .ok c := by
  cases c with
  | unconfigured => rfl
  | named k ms => exact chord_display_named h ms
  | literal c => exact chord_display_literal h

/-- A part that is one character is neither a plus sign nor white space. -/
theorem not_plus_not_isBlank_of_mem_parts {s : Text} {c : Char} (h : [c] ∈ parts s) :
    c ≠ '+' ∧ ¬ Text.isBlank c := by
  obtain ⟨piece, hpiece, htrim⟩ := List.mem_map.1 h
  constructor
  · rintro rfl
    have hmem : '+' ∈ piece := Text.mem_of_mem_trim (htrim ▸ List.mem_singleton_self '+')
    exact Text.not_mem_of_mem_splitOn hpiece hmem
  · have hlast := Text.not_isBlank_getLast_trim piece (htrim ▸ List.cons_ne_nil c [])
    simpa only [htrim, List.getLast_singleton] using hlast

theorem isReadable_of_chord {s : Text} {c : Chord} (h : chord s = .ok c) : c.IsReadable := by
  have hs := standsFor_chord s
  rw [h] at hs
  cases hs with
  | blank => exact True.intro
  | @named k ms _ _ hp _ =>
    obtain ⟨t, -, p, ht, hk⟩ := mem_primaries.1 (hp ▸ List.mem_singleton_self (Sum.inl k))
    obtain rfl : p = .key k := by cases p <;> simp_all [Part.primary?]
    exact Part.isNamed_of_ofText ht
  | @literal c t _ ht hc =>
    obtain ⟨rfl, halpha⟩ := Part.eq_singleton_of_ofText hc
    obtain ⟨hplus, hblank⟩ := not_plus_not_isBlank_of_mem_parts (ht ▸ List.mem_singleton_self [c])
    exact ⟨hblank, hplus, halpha⟩

/-- The readable chords are exactly those that some pattern stands for. -/
theorem exists_chord_eq_iff_isReadable (c : Chord) : (∃ s, chord s = .ok c) ↔ c.IsReadable :=
  ⟨fun ⟨_, hs⟩ => isReadable_of_chord hs, fun h => ⟨c.display, chord_display h⟩⟩

theorem display_injOn {c d : Chord} (hc : c.IsReadable) (hd : d.IsReadable)
    (h : c.display = d.display) : c = d := by
  have heq := chord_display hc
  rw [h, chord_display hd] at heq
  exact (Except.ok.inj heq).symm

/-- Showing and reading are inverse to each other on the chords that patterns stand for, and on no
other chord. -/
theorem chord_display_eq_iff :
    (∀ s c, chord s = .ok c → chord c.display = .ok c) ∧
      (∀ c, chord c.display = .ok c ↔ ∃ s, chord s = .ok c) ∧
      ∀ s t c d, chord s = .ok c → chord t = .ok d → c.display = d.display → c = d := by
  refine ⟨?_, ?_, ?_⟩
  · intro s c h
    exact chord_display (isReadable_of_chord h)
  · intro c
    constructor
    · intro h
      exact ⟨c.display, h⟩
    · rintro ⟨s, h⟩
      exact chord_display (isReadable_of_chord h)
  · intro s t c d hs ht h
    exact display_injOn (isReadable_of_chord hs) (isReadable_of_chord ht) h

theorem chord_display_downArrow :
    chord "alt + DownArrow".toList = .ok (.named .down { alt := true }) ∧
      chord (Chord.named .down { alt := true }).display = .ok (.named .down { alt := true }) ∧
      ¬ ∃ s, chord s = .ok (.literal 'a') := by
  have h : chord "alt + DownArrow".toList = .ok (.named .down { alt := true }) := by
    decide +kernel
  refine ⟨h, chord_display_eq_iff.1 _ _ h, ?_⟩
  rw [← chord_display_eq_iff.2.1]
  decide +kernel

end Pattern

end Keymap

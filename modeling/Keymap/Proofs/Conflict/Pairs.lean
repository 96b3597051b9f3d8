import Keymap.Proofs.Conflict.Report

/-! # The record as a set of pairs

Main statement: whatever pairs of a chord and a category are noted, and in whatever order,
the record answers each question as the set of these pairs does. Of the order it keeps only
which categories were noted first with a chord, for the conflicts that it reports.
-/
namespace Keymap.ChordUses

variable {uses : ChordUses} {pairs : List (Chord × Category)} {chord : Chord} {c : Category}
  {cs : List Category}

def ofPairs (pairs : List (Chord × Category)) : ChordUses :=
  pairs.foldl (fun uses pair => uses.add pair.1 pair.2) []

/-- At least two categories are noted with the chord. -/
def Shared (pairs : List (Chord × Category)) (chord : Chord) : Prop :=
  ∃ c d, c ≠ d ∧ (chord, c) ∈ pairs ∧ (chord, d) ∈ pairs

/-- The categories noted with the chord, in the order of the first notes of them. -/
structure FirstUses (pairs : List (Chord × Category)) (chord : Chord) (cs : List Category) :
    Prop where
  mem_iff : ∀ c, c ∈ cs ↔ (chord, c) ∈ pairs
  ordered : cs.Pairwise fun c d => pairs.idxOf (chord, c) < pairs.idxOf (chord, d)

/-- The invariant of the record while pairs are noted. -/
structure Represents (uses : ChordUses) (pairs : List (Chord × Category)) : Prop where
  wellFormed : uses.WellFormed
  firstUses : ∀ chord, FirstUses pairs chord (uses.users chord)
  total : uses.total = pairs.toFinset.card

namespace FirstUses

theorem nodup (h : FirstUses pairs chord cs) : cs.Nodup := by
  apply h.ordered.imp
  rintro c d hlt rfl
  exact Nat.lt_irrefl _ hlt

theorem one_lt_length_iff (h : FirstUses pairs chord cs) :
    1 < cs.length ↔ Shared pairs chord := by
  rw [← List.toFinset_card_of_nodup h.nodup, Finset.one_lt_card]
  simp only [List.mem_toFinset, h.mem_iff]
  constructor
  · rintro ⟨c, hc, d, hd, hne⟩
    exact ⟨c, d, hne, hc, hd⟩
  · rintro ⟨c, d, hne, hc, hd⟩
    exact ⟨c, hc, d, hd, hne⟩

/-- A note at the end does not move the first notes of what has been noted before. -/
theorem ordered_concat (h : FirstUses pairs chord cs) (pair : Chord × Category) :
    cs.Pairwise fun c d =>
      (pairs ++ [pair]).idxOf (chord, c) < (pairs ++ [pair]).idxOf (chord, d) := by
  apply h.ordered.imp_of_mem
  intro c d hc hd hlt
  rw [List.idxOf_append_of_mem ((h.mem_iff c).1 hc), List.idxOf_append_of_mem ((h.mem_iff d).1 hd)]
  exact hlt

theorem concat_of_ne (h : FirstUses pairs chord cs) {pair : Chord × Category}
    (hne : pair.1 ≠ chord) : FirstUses (pairs ++ [pair]) chord cs := by
  refine ⟨?_, h.ordered_concat pair⟩
  intro c
  rw [h.mem_iff, List.mem_append, List.mem_singleton]
  apply (or_iff_left ?_).symm
  rintro rfl
  exact hne rfl

theorem concat (h : FirstUses pairs chord cs) (c : Category) :
    FirstUses (pairs ++ [(chord, c)]) chord (addCategory c cs) := by
  have hmem (d : Category) : d ∈ addCategory c cs ↔ (chord, d) ∈ pairs ++ [(chord, c)] := by
    simp [mem_addCategory, h.mem_iff, or_comm]
  refine ⟨hmem, ?_⟩
  by_cases hc : c ∈ cs
  · rw [addCategory, if_pos hc]
    exact h.ordered_concat _
  · rw [addCategory_of_not_mem hc, List.pairwise_append]
    refine ⟨h.ordered_concat _, List.pairwise_singleton _ _, ?_⟩
    intro d hd e he
    obtain rfl := List.mem_singleton.1 he
    have hd := (h.mem_iff d).1 hd
    rw [List.idxOf_append_of_mem hd, List.idxOf_append_of_notMem (mt (h.mem_iff _).2 hc)]
    exact Nat.lt_add_right _ (List.idxOf_lt_length_of_mem hd)

end FirstUses

theorem total_add (uses : ChordUses) (chord : Chord) (c : Category) :
    (uses.add chord c).total =
      if c ∈ uses.users chord then uses.total else uses.total + 1 := by
  induction uses with
  | nil => rfl
  | cons entry uses ih =>
    obtain ⟨other, cs⟩ := entry
    rw [add, users_cons]
    by_cases h : other = chord
    · by_cases hc : c ∈ cs <;> simp [h, hc, total, addCategory, Nat.add_right_comm]
    · rw [if_neg h, if_neg (Ne.symm h), total, total, ih]
      split <;> rfl

/-- A repeated note changes nothing. -/
theorem add_of_mem (h : c ∈ uses.users chord) : uses.add chord c = uses := by
  induction uses with
  | nil => cases h
  | cons entry uses ih =>
    obtain ⟨other, cs⟩ := entry
    rw [users_cons] at h
    rw [add]
    by_cases hchord : other = chord
    · rw [if_pos hchord.symm] at h
      rw [if_pos hchord, addCategory, if_pos h]
    · rw [if_neg (Ne.symm hchord)] at h
      rw [if_neg hchord, ih h]

namespace Represents

theorem mem_users (h : uses.Represents pairs) : c ∈ uses.users chord ↔ (chord, c) ∈ pairs :=
  (h.firstUses chord).mem_iff c

theorem nil : Represents [] [] where
  wellFormed := List.nodup_nil
  firstUses chord := ⟨fun c => by simp [users], List.Pairwise.nil⟩
  total := rfl

theorem add (h : uses.Represents pairs) (pair : Chord × Category) :
    (uses.add pair.1 pair.2).Represents (pairs ++ [pair]) where
  wellFormed := h.wellFormed.add pair.1 pair.2
  firstUses chord := by
    rw [users_add]
    by_cases hchord : chord = pair.1
    · rw [if_pos hchord, hchord]
      exact (h.firstUses pair.1).concat pair.2
    · rw [if_neg hchord]
      exact (h.firstUses chord).concat_of_ne (Ne.symm hchord)
  total := by
    have hset : (pairs ++ [pair]).toFinset = insert pair pairs.toFinset := by
      ext q
      simp
    simp only [total_add, h.mem_users, h.total, hset, ← List.mem_toFinset]
    by_cases hpair : pair ∈ pairs.toFinset
    · rw [if_pos hpair, Finset.insert_eq_of_mem hpair]
    · rw [if_neg hpair, Finset.card_insert_of_notMem hpair]

theorem ofPairs (pairs : List (Chord × Category)) : (ofPairs pairs).Represents pairs := by
  induction pairs using List.reverseRecOn with
  | nil => exact nil
  | append_singleton pairs pair ih =>
    rw [ChordUses.ofPairs, List.foldl_concat]
    exact ih.add pair

theorem hasConflict_iff (h : uses.Represents pairs) :
    uses.hasConflict chord ↔ Shared pairs chord := by
  rw [hasConflict, decide_eq_true_iff]
  exact (h.firstUses chord).one_lt_length_iff

theorem firstUses_of_mem_conflicts (h : uses.Represents pairs) {x : Conflict}
    (hx : x ∈ uses.conflicts) : FirstUses pairs x.chord x.categories := by
  rw [((mem_conflicts h.wellFormed).1 hx).1]
  exact h.firstUses x.chord

theorem mem_map_chord_conflicts (h : uses.Represents pairs) :
    chord ∈ uses.conflicts.map Conflict.chord ↔ Shared pairs chord := by
  rw [List.mem_map]
  constructor
  · rintro ⟨x, hx, rfl⟩
    have hlen := ((mem_conflicts h.wellFormed).1 hx).2
    exact (h.firstUses_of_mem_conflicts hx).one_lt_length_iff.1 hlen
  · intro hchord
    have hlen := (h.firstUses chord).one_lt_length_iff.2 hchord
    exact ⟨⟨chord, uses.users chord⟩, (mem_conflicts h.wellFormed).2 ⟨rfl, hlen⟩, rfl⟩

end Represents

theorem ofPairs_repeated (pairs after : List (Chord × Category)) {pair : Chord × Category}
    (h : pair ∈ pairs) : ofPairs (pairs ++ pair :: after) = ofPairs (pairs ++ after) := by
  have hadd := add_of_mem ((Represents.ofPairs pairs).mem_users.2 h)
  rw [ofPairs] at hadd
  simp only [ofPairs, List.foldl_append, List.foldl_cons, hadd]

/-- The record of any row of notes answers as the set of the noted pairs does. A chord has a
conflict if two categories at least are noted with it. The report has each such chord once and no
other, with its categories in the order of their first notes, sorted by the patterns shown in the
order of their bytes in UTF-8. The total is the number of pairs, and a repeated note changes
nothing. -/
theorem answers_ofPairs (pairs : List (Chord × Category)) :
    (∀ chord, (ofPairs pairs).hasConflict chord ↔ Shared pairs chord) ∧
    ((ofPairs pairs).conflicts.map Conflict.chord).Nodup ∧
    (∀ chord, chord ∈ (ofPairs pairs).conflicts.map Conflict.chord ↔ Shared pairs chord) ∧
    (∀ x ∈ (ofPairs pairs).conflicts, FirstUses pairs x.chord x.categories) ∧
    ((ofPairs pairs).conflicts.Pairwise fun x y =>
      x.chord.display.bytes ≤ y.chord.display.bytes) ∧
    (ofPairs pairs).total = pairs.toFinset.card ∧
    ∀ pair ∈ pairs, ∀ after, ofPairs (pairs ++ pair :: after) = ofPairs (pairs ++ after) := by
  have h := Represents.ofPairs pairs
  have hreports := reports_conflicts (ofPairs pairs)
  refine ⟨fun chord => h.hasConflict_iff, hreports.nodup h.wellFormed,
    fun chord => h.mem_map_chord_conflicts, fun x hx => h.firstUses_of_mem_conflicts hx,
    hreports.sorted, h.total, ?_⟩
  intro pair hpair after
  exact ofPairs_repeated pairs after hpair

def noted : List (Chord × Category) :=
  [(.named .tab {}, .submitInput), (.named .enter {}, .submitInput),
   (.named .tab {}, .commitCompletion), (.named .tab {}, .submitInput),
   (.literal '.', .insertNewline), (.named .enter {}, .insertNewline)]

/-- A conflict lists the category that was noted first, wherever it stands in the order of
dispatch. -/
theorem answers_ofPairs_noted :
    ⟨.named .tab {}, [.submitInput, .commitCompletion]⟩ ∈ (ofPairs noted).conflicts ∧
    FirstUses noted (.named .tab {}) [.submitInput, .commitCompletion] ∧
    (.named .tab {}, .submitInput) ∈ noted ∧
    ofPairs (noted ++ [(.named .tab {}, .submitInput)]) = ofPairs noted ∧
    (ofPairs noted).total = 5 := by
  have hx : ⟨.named .tab {}, [.submitInput, .commitCompletion]⟩ ∈ (ofPairs noted).conflicts :=
    (mem_conflicts (Represents.ofPairs noted).wellFormed).2 (by decide)
  have hpair : (.named .tab {}, .submitInput) ∈ noted := by decide
  obtain ⟨-, -, -, hfirst, -, htotal, hrepeated⟩ := answers_ofPairs noted
  refine ⟨hx, hfirst _ hx, hpair, ?_, htotal⟩
  rw [hrepeated _ hpair [], List.append_nil]

end Keymap.ChordUses

namespace Keymap.Bindings

def pairs (b : Bindings) : List (Chord × Category) :=
  b.toList.flatMap fun entry => entry.2.map fun chord => (chord, entry.1)

theorem mem_pairs {b : Bindings} {chord : Chord} {c : Category} :
    (chord, c) ∈ b.pairs ↔ chord ∈ b.get c := by
  simp [pairs, ByCategory.toList, Category.mem_all]

theorem ofBindings_eq_ofPairs (b : Bindings) :
    ChordUses.ofBindings b = ChordUses.ofPairs b.pairs := by
  simp [ChordUses.ofBindings, ChordUses.ofPairs, pairs, List.foldl_flatMap, List.foldl_map]

end Keymap.Bindings

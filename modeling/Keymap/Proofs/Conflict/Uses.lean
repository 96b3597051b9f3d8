import Keymap.Conflict
import Mathlib.Data.List.Nodup

/-! # What the detector records

Each chord stands once in the record of uses, with the categories that bind it in
the order of dispatch. The conflicts are those with two categories or more.
-/
namespace Keymap

def Bindings.users (b : Bindings) (chord : Chord) : List Category :=
  Category.all.filter fun c => decide (chord ∈ b.get c)

theorem Bindings.mem_users {b : Bindings} {chord : Chord} {c : Category} :
    c ∈ b.users chord ↔ chord ∈ b.get c := by
  rw [users, List.mem_filter, decide_eq_true_iff]
  exact and_iff_right (Category.mem_all c)

namespace ChordUses

def WellFormed (uses : ChordUses) : Prop := (uses.map Prod.fst).Nodup

theorem mem_addCategory {c d : Category} {users : List Category} :
    d ∈ addCategory c users ↔ d = c ∨ d ∈ users := by
  rw [addCategory]
  by_cases hc : c ∈ users
  · rw [if_pos hc]
    constructor
    · exact Or.inr
    · rintro (rfl | hd)
      · exact hc
      · exact hd
  · rw [if_neg hc, List.mem_append, List.mem_singleton, or_comm]

theorem addCategory_addCategory (c : Category) (users : List Category) :
    addCategory c (addCategory c users) = addCategory c users := by
  have hc : c ∈ addCategory c users := mem_addCategory.2 (Or.inl rfl)
  rw [addCategory, if_pos hc]

theorem addCategory_of_not_mem {c : Category} {users : List Category} (h : c ∉ users) :
    addCategory c users = users ++ [c] := by
  rw [addCategory, if_neg h]

theorem users_cons (entry : Chord × List Category) (uses : ChordUses) (chord : Chord) :
    users (entry :: uses) chord = if chord = entry.1 then entry.2 else users uses chord := by
  obtain ⟨other, cs⟩ := entry
  rw [users, List.lookup_cons]
  by_cases h : chord = other
  · rw [h, beq_self_eq_true, if_pos rfl]
    rfl
  · rw [beq_false_of_ne h, if_neg h]
    rfl

theorem users_add (uses : ChordUses) (chord other : Chord) (c : Category) :
    (uses.add chord c).users other =
      if other = chord then addCategory c (uses.users chord) else uses.users other := by
  induction uses with
  | nil =>
    rw [add, users_cons]
    rfl
  | cons entry uses ih =>
    obtain ⟨first, cs⟩ := entry
    rw [add]
    by_cases hfirst : first = chord
    · rw [if_pos hfirst, users_cons, users_cons, users_cons, hfirst]
      by_cases h : other = chord
      · rw [if_pos h, if_pos h, if_pos rfl]
      · rw [if_neg h, if_neg h, if_neg h]
    · rw [if_neg hfirst, users_cons, users_cons, users_cons, ih]
      by_cases h : other = first
      · subst h
        rw [if_pos rfl, if_pos rfl, if_neg hfirst]
      · have hne : chord ≠ first := fun heq => hfirst heq.symm
        rw [if_neg h, if_neg h, if_neg hne]

theorem mem_chords_add {uses : ChordUses} {chord other : Chord} {c : Category} :
    other ∈ (uses.add chord c).map Prod.fst ↔ other = chord ∨ other ∈ uses.map Prod.fst := by
  induction uses with
  | nil => simp [add]
  | cons entry uses ih =>
    rw [add]
    by_cases h : entry.1 = chord
    · simp [h]
    · rw [if_neg h, List.map_cons, List.map_cons, List.mem_cons, List.mem_cons, ih]
      exact or_left_comm

theorem WellFormed.add {uses : ChordUses} (h : uses.WellFormed) (chord : Chord) (c : Category) :
    (uses.add chord c).WellFormed := by
  induction uses with
  | nil => exact List.nodup_singleton chord
  | cons entry uses ih =>
    obtain ⟨hentry, huses⟩ := List.nodup_cons.1 h
    rw [ChordUses.add]
    by_cases hfirst : entry.1 = chord
    · rw [if_pos hfirst]
      exact h
    · rw [if_neg hfirst]
      refine List.nodup_cons.2 ⟨?_, ih huses⟩
      rw [mem_chords_add, not_or]
      exact ⟨hfirst, hentry⟩

def addAll (uses : ChordUses) (c : Category) (chords : ChordList) : ChordUses :=
  chords.foldl (fun u chord => u.add chord c) uses

theorem users_addAll (uses : ChordUses) (c : Category) (chords : ChordList) (chord : Chord) :
    (uses.addAll c chords).users chord =
      if chord ∈ chords then addCategory c (uses.users chord) else uses.users chord := by
  induction chords generalizing uses with
  | nil => rfl
  | cons first chords ih =>
    change ((uses.add first c).addAll c chords).users chord = _
    rw [ih, users_add]
    by_cases h : chord = first
    · subst h
      rw [if_pos rfl, if_pos List.mem_cons_self, addCategory_addCategory, ite_self]
    · have hmem : chord ∈ first :: chords ↔ chord ∈ chords := by
        rw [List.mem_cons, or_iff_right h]
      rw [if_neg h]
      simp only [hmem]

theorem WellFormed.addAll {uses : ChordUses} (h : uses.WellFormed) (c : Category)
    (chords : ChordList) : (uses.addAll c chords).WellFormed := by
  induction chords generalizing uses with
  | nil => exact h
  | cons first chords ih => exact ih (h.add first c)

def addEach (uses : ChordUses) (b : Bindings) (cs : List Category) : ChordUses :=
  cs.foldl (fun u c => u.addAll c (b.get c)) uses

theorem ofBindings_eq_addEach (b : Bindings) : ofBindings b = addEach [] b Category.all := by
  rw [ofBindings, ByCategory.toList, List.foldl_map]
  rfl

/-- Categories not yet noted come after those that are, in the order in which they are noted. -/
theorem users_addEach {uses : ChordUses} {b : Bindings} {cs : List Category} {chord : Chord}
    (hcs : cs.Nodup) (hnew : ∀ c ∈ cs, c ∉ uses.users chord) :
    (uses.addEach b cs).users chord =
      uses.users chord ++ cs.filter fun c => decide (chord ∈ b.get c) := by
  induction cs generalizing uses with
  | nil => exact (List.append_nil _).symm
  | cons c cs ih =>
    obtain ⟨hc, hcs⟩ := List.nodup_cons.1 hcs
    have hfirst := hnew c List.mem_cons_self
    change ((uses.addAll c (b.get c)).addEach b cs).users chord = _
    by_cases hchord : chord ∈ b.get c
    · have husers : (uses.addAll c (b.get c)).users chord = uses.users chord ++ [c] := by
        rw [users_addAll, if_pos hchord, addCategory_of_not_mem hfirst]
      rw [ih hcs, husers, List.filter_cons_of_pos (by simpa using hchord), List.append_assoc]
      · rfl
      · intro d hd
        rw [husers, List.mem_append, List.mem_singleton, not_or]
        exact ⟨hnew d (List.mem_cons_of_mem c hd), fun hdc => hc (hdc ▸ hd)⟩
    · have husers : (uses.addAll c (b.get c)).users chord = uses.users chord := by
        rw [users_addAll, if_neg hchord]
      rw [ih hcs, husers, List.filter_cons_of_neg (by simpa using hchord)]
      intro d hd
      rw [husers]
      exact hnew d (List.mem_cons_of_mem c hd)

theorem users_ofBindings (b : Bindings) (chord : Chord) :
    (ofBindings b).users chord = b.users chord := by
  rw [ofBindings_eq_addEach, users_addEach (by decide) (by simp [users])]
  rfl

theorem WellFormed.addEach {uses : ChordUses} (h : uses.WellFormed) (b : Bindings)
    (cs : List Category) : (uses.addEach b cs).WellFormed := by
  induction cs generalizing uses with
  | nil => exact h
  | cons c cs ih => exact ih (h.addAll c (b.get c))

theorem wellFormed_ofBindings (b : Bindings) : (ofBindings b).WellFormed := by
  have hnil : WellFormed [] := List.nodup_nil
  rw [ofBindings_eq_addEach]
  exact hnil.addEach b Category.all

/-- A recorded chord has the categories that it is recorded with. -/
theorem users_of_mem {uses : ChordUses} (h : uses.WellFormed) {chord : Chord}
    {cs : List Category} (hmem : (chord, cs) ∈ uses) : uses.users chord = cs := by
  induction uses with
  | nil => cases hmem
  | cons entry uses ih =>
    obtain ⟨hentry, huses⟩ := List.nodup_cons.1 h
    rw [users_cons]
    rcases List.mem_cons.1 hmem with rfl | hmem
    · exact if_pos rfl
    · have hne : chord ≠ entry.1 := by
        intro heq
        rw [← heq] at hentry
        exact hentry (List.mem_map_of_mem hmem)
      rw [if_neg hne]
      exact ih huses hmem

theorem mem_of_users_ne_nil {uses : ChordUses} {chord : Chord} (h : uses.users chord ≠ []) :
    (chord, uses.users chord) ∈ uses := by
  induction uses with
  | nil => exact absurd rfl h
  | cons entry uses ih =>
    rw [users_cons] at h ⊢
    by_cases hchord : chord = entry.1
    · rw [if_pos hchord, hchord]
      exact List.mem_cons_self
    · rw [if_neg hchord] at h ⊢
      exact List.mem_cons_of_mem entry (ih h)

theorem mem_conflicts {uses : ChordUses} (h : uses.WellFormed) {x : Conflict} :
    x ∈ uses.conflicts ↔ x.categories = uses.users x.chord ∧ 1 < x.categories.length := by
  rw [conflicts, List.mem_mergeSort, List.mem_filterMap]
  constructor
  · rintro ⟨⟨chord, cs⟩, hmem, hx⟩
    by_cases hlen : 1 < cs.length
    · rw [if_pos hlen] at hx
      obtain rfl := Option.some.inj hx
      exact ⟨(users_of_mem h hmem).symm, hlen⟩
    · rw [if_neg hlen] at hx
      cases hx
  · rintro ⟨hcs, hlen⟩
    have hne : uses.users x.chord ≠ [] := by
      rw [← hcs]
      exact List.ne_nil_of_length_pos (Nat.lt_of_succ_lt hlen)
    refine ⟨(x.chord, uses.users x.chord), mem_of_users_ne_nil hne, ?_⟩
    rw [← hcs, if_pos hlen]

end ChordUses

/-- The reported conflicts are the chords that several categories bind, with these categories. -/
theorem Bindings.mem_conflicts {b : Bindings} {x : Conflict} :
    x ∈ b.conflicts ↔ x.categories = b.users x.chord ∧ 1 < x.categories.length := by
  rw [conflicts, ChordUses.mem_conflicts (ChordUses.wellFormed_ofBindings b),
    ChordUses.users_ofBindings]

end Keymap

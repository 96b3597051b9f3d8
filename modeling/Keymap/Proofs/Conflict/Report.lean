import Keymap.Proofs.Conflict.Dispatch
import Keymap.Proofs.Text.ByteOrder

/-! # The order of the report

Conflicts are taken from the record in whatever order its entries are met and sorted by the
patterns that are shown for their chords. Main statement: on assembled bindings no two
conflicts show the same pattern, so the order in which the entries are met leaves no trace.
-/
namespace Keymap

def Chord.isLiteral : Chord → Bool
  | .literal _ => true
  | _ => false

namespace Conflict

/-- The bytes by which conflicts are sorted, those of the pattern that is shown for the chord. -/
def sortKey (x : Conflict) : List UInt8 := x.chord.display.bytes

theorem sortKey_eq_iff {x y : Conflict} :
    x.sortKey = y.sortKey ↔ x.chord.display = y.chord.display :=
  Text.bytes_injective.eq_iff

theorem comesBefore_iff {x y : Conflict} :
    x.comesBefore y ↔ x.sortKey ≤ y.sortKey ∧
      (x.sortKey = y.sortKey → x.chord.isLiteral → y.chord.isLiteral) := by
  rw [sortKey_eq_iff, sortKey, sortKey, ← Text.precedes_iff_bytes_le, comesBefore]
  by_cases h : x.chord.display = y.chord.display
  · have hrefl := Text.precedes_total y.chord.display y.chord.display
    rw [Bool.or_self] at hrefl
    cases hx : x.chord <;> cases hy : y.chord <;> simp_all [Chord.isLiteral]
  · simp [h]

theorem comesBefore_total (x y : Conflict) : x.comesBefore y || y.comesBefore x := by
  rw [Bool.or_eq_true, comesBefore_iff, comesBefore_iff]
  by_cases h : x.sortKey = y.sortKey
  · cases hx : x.chord.isLiteral <;> simp [h]
  · rcases List.le_total x.sortKey y.sortKey with hle | hle
    · exact Or.inl ⟨hle, fun heq => absurd heq h⟩
    · exact Or.inr ⟨hle, fun heq => absurd heq.symm h⟩

theorem comesBefore_trans (x y z : Conflict) (hxy : x.comesBefore y) (hyz : y.comesBefore z) :
    x.comesBefore z := by
  rw [comesBefore_iff] at hxy hyz ⊢
  obtain ⟨hxy, hxy'⟩ := hxy
  obtain ⟨hyz, hyz'⟩ := hyz
  refine ⟨List.le_trans hxy hyz, ?_⟩
  intro hxz hx
  have heq : x.sortKey = y.sortKey := List.le_antisymm hxy (hxz ▸ hyz)
  exact hyz' (heq ▸ hxz) (hxy' heq hx)

end Conflict

namespace ChordUses

variable {uses entries : ChordUses} {report other : List Conflict}

def contested (uses : ChordUses) : List Conflict :=
  uses.filterMap fun entry => if 1 < entry.2.length then some ⟨entry.1, entry.2⟩ else none

/-- Whether a list can be the report of a record: it has the conflicts in the record, sorted by
nothing but their keys. -/
structure Reports (uses : ChordUses) (report : List Conflict) : Prop where
  perm : report.Perm uses.contested
  sorted : report.Pairwise fun x y => x.sortKey ≤ y.sortKey

theorem reports_conflicts (uses : ChordUses) : uses.Reports uses.conflicts where
  perm := List.mergeSort_perm _ _
  sorted := by
    have hsorted := List.pairwise_mergeSort Conflict.comesBefore_trans Conflict.comesBefore_total
      uses.contested
    exact hsorted.imp fun h => (Conflict.comesBefore_iff.1 h).1

theorem Reports.of_perm (h : entries.Reports report) (hperm : entries.Perm uses) :
    uses.Reports report :=
  ⟨h.perm.trans (hperm.filterMap _), h.sorted⟩

/-- Where the keys of the conflicts differ, there is no more than one report. -/
theorem Reports.eq (h : uses.Reports report) (h' : uses.Reports other)
    (hkeys : ∀ x ∈ report, ∀ y ∈ report, x.sortKey = y.sortKey → x = y) : report = other := by
  have hperm := h.perm.trans h'.perm.symm
  apply List.Perm.eq_of_pairwise _ h.sorted h'.sorted hperm
  intro x y hx hy hxy hyx
  exact hkeys x hx y (hperm.mem_iff.2 hy) (List.le_antisymm hxy hyx)

theorem map_chord_contested (uses : ChordUses) :
    uses.contested.map Conflict.chord =
      (uses.filter fun entry => 1 < entry.2.length).map Prod.fst := by
  induction uses with
  | nil => rfl
  | cons entry uses ih =>
    rw [contested] at ih
    by_cases h : 1 < entry.2.length <;> simp [contested, h, ih]

/-- No chord is reported twice. -/
theorem Reports.nodup (h : uses.Reports report) (huses : uses.WellFormed) :
    (report.map Conflict.chord).Nodup := by
  rw [(h.perm.map Conflict.chord).nodup_iff, map_chord_contested]
  exact huses.sublist (List.filter_sublist.map Prod.fst)

end ChordUses

namespace Bindings

variable {b : Bindings}

/-- Of two conflicts of assembled bindings the patterns shown differ. -/
theorem eq_of_sortKey_eq (hb : b.WellFormed) {x y : Conflict} (hx : x ∈ b.conflicts)
    (hy : y ∈ b.conflicts) (h : x.sortKey = y.sortKey) : x = y := by
  obtain ⟨c, hc⟩ := exists_mem_get_of_mem_conflicts hx
  obtain ⟨d, hd⟩ := exists_mem_get_of_mem_conflicts hy
  have hchord : x.chord = y.chord :=
    Pattern.display_injOn (hb c _ hc).1 (hb d _ hd).1 (Conflict.sortKey_eq_iff.1 h)
  have hcategories : x.categories = y.categories := by
    rw [(mem_conflicts.1 hx).1, (mem_conflicts.1 hy).1, hchord]
  cases x
  cases y
  simp_all

theorem reports_iff (hb : b.WellFormed) {report : List Conflict} :
    (ChordUses.ofBindings b).Reports report ↔ report = b.conflicts := by
  have hreports := ChordUses.reports_conflicts (ChordUses.ofBindings b)
  constructor
  · intro h
    symm
    apply hreports.eq h
    intro x hx y hy
    exact eq_of_sortKey_eq hb hx hy
  · rintro rfl
    exact hreports

theorem pairwise_conflicts (hb : b.WellFormed) :
    b.conflicts.Pairwise fun x y => x.sortKey < y.sortKey := by
  have hreports := ChordUses.reports_conflicts (ChordUses.ofBindings b)
  have hnodup := hreports.nodup (ChordUses.wellFormed_ofBindings b)
  have hne : b.conflicts.Pairwise fun x y => x ≠ y := hnodup.of_map
  refine (hne.and hreports.sorted).imp_of_mem ?_
  intro x y hx hy h
  obtain ⟨hne, hle⟩ := h
  apply (List.le_iff_lt_or_eq.1 hle).resolve_right
  exact fun heq => hne (eq_of_sortKey_eq hb hx hy heq)

/-- The report of conflicts is stable. Whatever order the entries of the record are met in, sorting
the conflicts by the patterns shown gives one list only: the patterns rise strictly in the order of
their bytes in UTF-8, so that no two conflicts compete for a place, and the categories of each
conflict stand in the order of dispatch. -/
theorem reports_iff_eq_conflicts (hb : b.Assembled) :
    (∀ entries : ChordUses, entries.Perm (ChordUses.ofBindings b) →
      entries.conflicts = b.conflicts ∧
      ∀ report, entries.Reports report ↔ report = b.conflicts) ∧
    (b.conflicts.Pairwise fun x y => x.chord.display.bytes < y.chord.display.bytes) ∧
    ∀ x ∈ b.conflicts, x.categories.Sublist Category.all := by
  have hwf := hb.wellFormed
  refine ⟨?_, pairwise_conflicts hwf, ?_⟩
  · intro entries hperm
    have hreports (report : List Conflict) :
        entries.Reports report ↔ report = b.conflicts := by
      rw [← reports_iff hwf]
      exact ⟨fun h => h.of_perm hperm, fun h => h.of_perm hperm.symm⟩
    exact ⟨(hreports _).1 (ChordUses.reports_conflicts entries), hreports⟩
  · intro x hx
    rw [(mem_conflicts.1 hx).1]
    exact List.filter_sublist

def crossed : Config :=
  { Config.empty with
    commitCompletion := ["Tab".toList, "Enter".toList]
    submitInput := ["Enter".toList, "Tab".toList, "F5".toList] }

def crossedBindings : Bindings :=
  { default with
    commitCompletion := [.named .tab {}, .named .enter {}]
    submitInput := [.named .enter {}, .named .tab {}, .named (.function 5) {}] }

/-- The entries of a record met from the last to the first are reported in the same way. -/
theorem reports_iff_eq_conflicts_crossed :
    build crossed = .ok crossedBindings ∧
    ⟨.named .tab {}, [.commitCompletion, .submitInput]⟩ ∈ crossedBindings.conflicts ∧
    ChordUses.conflicts (ChordUses.ofBindings crossedBindings).reverse =
      crossedBindings.conflicts ∧
    (crossedBindings.conflicts.Pairwise fun x y =>
      x.chord.display.bytes < y.chord.display.bytes) := by
  have hbuild : build crossed = .ok crossedBindings := by decide +kernel
  obtain ⟨hentries, hpairwise, -⟩ := reports_iff_eq_conflicts (.built hbuild)
  refine ⟨hbuild, mem_conflicts.2 (by decide +kernel), ?_, hpairwise⟩
  exact (hentries _ (List.reverse_perm _)).1

end Bindings

end Keymap

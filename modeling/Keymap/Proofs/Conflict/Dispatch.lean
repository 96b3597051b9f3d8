import Keymap.Proofs.Bindings.Assembly
import Keymap.Proofs.Chord.Matching
import Keymap.Proofs.Conflict.Uses

/-! # Conflicts and live presses

A conflict is found by comparing chords, while dispatch asks which chords a press
triggers. On assembled bindings and presses from a terminal the two agree: a press
triggers several categories exactly if it triggers the chord of a conflict.
-/
namespace Keymap.Bindings

def triggered (b : Bindings) (press : KeyPress) : List Category :=
  Category.all.filter (b.matchesPress press)

theorem mem_triggered {b : Bindings} {press : KeyPress} {c : Category} :
    c ∈ b.triggered press ↔ b.matchesPress press c := by
  rw [triggered, List.mem_filter]
  exact and_iff_right (Category.mem_all c)

theorem matchesPress_iff {b : Bindings} {press : KeyPress} {c : Category} :
    b.matchesPress press c ↔ ∃ chord ∈ b.get c, chord.matchesPress press := by
  rw [matchesPress, ChordList.matchesPress, List.any_eq_true]

theorem matchesPress_press?_iff {b : Bindings} {c : Chord} {press : KeyPress}
    (hpress : c.press? = some press) (k : Category) : b.matchesPress press k ↔ c ∈ b.get k := by
  simp [matchesPress_iff, Chord.matchesPress_press?_iff hpress]

/-- A bound chord that the press triggers stands for all chords that it triggers. -/
theorem triggered_eq_users {b : Bindings} (hb : b.WellFormed) {press : KeyPress}
    (hpress : press.IsCoherent) {chord : Chord} {c : Category} (hc : chord ∈ b.get c)
    (h : chord.matchesPress press) : b.triggered press = b.users chord := by
  refine List.filter_congr ?_
  intro d _
  rw [Bool.eq_iff_iff, decide_eq_true_iff, matchesPress_iff]
  constructor
  · rintro ⟨other, hother, hmatch⟩
    have heq : other = chord :=
      Chord.eq_of_matchesPress (hb d other hother).1 (hb c chord hc).1 hpress hmatch h
    rw [← heq]
    exact hother
  · intro hd
    exact ⟨chord, hd, h⟩

theorem exists_mem_get_of_mem_conflicts {b : Bindings} {x : Conflict} (hx : x ∈ b.conflicts) :
    ∃ c, x.chord ∈ b.get c := by
  obtain ⟨hcs, hlen⟩ := mem_conflicts.1 hx
  obtain ⟨c, hc⟩ := List.exists_mem_of_length_pos (Nat.lt_of_succ_lt hlen)
  rw [hcs] at hc
  exact ⟨c, mem_users.1 hc⟩

/-- The categories of a conflict are those that a press of its chord triggers. -/
theorem triggered_eq_categories {b : Bindings} (hb : b.WellFormed) {press : KeyPress}
    (hpress : press.IsCoherent) {x : Conflict} (hx : x ∈ b.conflicts)
    (h : x.chord.matchesPress press) : b.triggered press = x.categories := by
  obtain ⟨c, hc⟩ := exists_mem_get_of_mem_conflicts hx
  rw [triggered_eq_users hb hpress hc h, (mem_conflicts.1 hx).1]

theorem two_le_length_triggered_iff {b : Bindings} (hb : b.WellFormed) {press : KeyPress}
    (hpress : press.IsCoherent) :
    2 ≤ (b.triggered press).length ↔ ∃ x ∈ b.conflicts, x.chord.matchesPress press := by
  constructor
  · intro hlen
    obtain ⟨c, hc⟩ := List.exists_mem_of_length_pos (Nat.lt_of_succ_lt hlen)
    obtain ⟨chord, hchord, h⟩ := matchesPress_iff.1 (mem_triggered.1 hc)
    have husers := triggered_eq_users hb hpress hchord h
    rw [husers] at hlen
    exact ⟨⟨chord, b.users chord⟩, mem_conflicts.2 ⟨rfl, hlen⟩, h⟩
  · rintro ⟨x, hx, h⟩
    rw [triggered_eq_categories hb hpress hx h]
    exact (mem_conflicts.1 hx).2

/-- Where a press triggers at most one category, the order of dispatch does not matter. -/
theorem dispatch_congr {b : Bindings} {press : KeyPress}
    (hone : (b.triggered press).length ≤ 1) {p q : List Category} (hpq : ∀ c, c ∈ p ↔ c ∈ q) :
    b.dispatch press p = b.dispatch press q := by
  have hunique : ∀ c d, b.matchesPress press c → b.matchesPress press d → c = d := by
    intro c d hc hd
    have hc' := mem_triggered.2 hc
    have hd' := mem_triggered.2 hd
    match h : b.triggered press with
    | [] =>
      rw [h] at hc'
      cases hc'
    | [only] =>
      rw [h, List.mem_singleton] at hc' hd'
      rw [hc', hd']
    | _ :: _ :: _ =>
      rw [h] at hone
      simp at hone
  cases hp : b.dispatch press p with
  | none =>
    symm
    rw [dispatch, List.find?_eq_none] at hp ⊢
    intro c hc
    exact hp c ((hpq c).2 hc)
  | some c =>
    have hc := List.find?_some hp
    have hmem := (hpq c).1 (List.mem_of_find?_eq_some hp)
    cases hq : b.dispatch press q with
    | none => exact absurd hc (List.find?_eq_none.1 hq c hmem)
    | some d => rw [hunique c d hc (List.find?_some hq)]

/-- The press that the chord of a conflict describes triggers its categories and no others. -/
theorem exists_press_of_mem_conflicts {b : Bindings} (hb : b.WellFormed) {x : Conflict}
    (hx : x ∈ b.conflicts) :
    ∃ press, x.chord.press? = some press ∧ ∀ c, b.matchesPress press c ↔ c ∈ x.categories := by
  obtain ⟨d, hd⟩ := exists_mem_get_of_mem_conflicts hx
  obtain ⟨press, hpress⟩ := Chord.exists_press?_of_isConfigured (hb d _ hd).2
  refine ⟨press, hpress, ?_⟩
  intro c
  rw [(mem_conflicts.1 hx).1, mem_users]
  exact matchesPress_press?_iff hpress c

/-- Conflict detection is sound and complete for live dispatch. A press from a terminal triggers two
categories or more exactly if it triggers the chord of a conflict, whose categories are then those
that it triggers. Without conflicts the order of dispatch does not matter, and each conflict shows
in the press that its chord describes. -/
theorem conflicts_iff_triggered {b : Bindings} (hb : b.Assembled) :
    (∀ (report : TerminalPress) (press : KeyPress), report.keyPress? = some press →
      (2 ≤ (b.triggered press).length ↔ ∃ x ∈ b.conflicts, x.chord.matchesPress press) ∧
      ∀ x ∈ b.conflicts, x.chord.matchesPress press → b.triggered press = x.categories) ∧
    (b.conflicts = [] →
      ∀ (report : TerminalPress) (press : KeyPress), report.keyPress? = some press →
      ∀ p q : List Category, (∀ c, c ∈ p ↔ c ∈ q) → b.dispatch press p = b.dispatch press q) ∧
    ∀ x ∈ b.conflicts, ∃ press, x.chord.press? = some press ∧
      ∀ c, b.matchesPress press c ↔ c ∈ x.categories := by
  have hwf := hb.wellFormed
  refine ⟨?_, ?_, ?_⟩
  · intro report press hpress
    have hcoherent := TerminalPress.isCoherent_of_keyPress? hpress
    exact ⟨two_le_length_triggered_iff hwf hcoherent,
      fun x hx h => triggered_eq_categories hwf hcoherent hx h⟩
  · intro hnil report press hpress p q hpq
    have hcoherent := TerminalPress.isCoherent_of_keyPress? hpress
    refine dispatch_congr (Nat.le_of_lt_succ ?_) hpq
    by_contra hlen
    obtain ⟨x, hx, -⟩ :=
      (two_le_length_triggered_iff hwf hcoherent).1 (Nat.not_lt.1 hlen)
    rw [hnil] at hx
    cases hx
  · intro x hx
    exact exists_press_of_mem_conflicts hwf hx

def enterTwice : Config :=
  (Config.empty.push .commitCompletion "Enter".toList).push .submitInput "return".toList

def enterTwiceBindings : Bindings :=
  { default with commitCompletion := [.named .enter {}], submitInput := [.named .enter {}] }

theorem triggered_enterTwice :
    build enterTwice = .ok enterTwiceBindings ∧
    enterTwiceBindings.triggered (.ofKey .enter) = [.commitCompletion, .submitInput] ∧
    (∃ press, (Chord.named .enter {}).press? = some press ∧
      ∀ c, enterTwiceBindings.matchesPress press c ↔
        c ∈ [Category.commitCompletion, .submitInput]) ∧
    default.dispatch (.ofKey .tab { shift := true }) Category.all =
      default.dispatch (.ofKey .tab { shift := true }) Category.all.reverse := by
  have hbuild : build enterTwice = .ok enterTwiceBindings := by decide +kernel
  have hx : ⟨.named .enter {}, [.commitCompletion, .submitInput]⟩ ∈
      enterTwiceBindings.conflicts := mem_conflicts.2 (by decide +kernel)
  have hnil : default.conflicts = [] := by decide +kernel
  obtain ⟨htriggered, -, hpress⟩ := conflicts_iff_triggered (.built hbuild)
  obtain ⟨-, hdispatch, -⟩ := conflicts_iff_triggered .default
  refine ⟨hbuild, ?_, hpress _ hx, ?_⟩
  · exact (htriggered ⟨.enter, {}, .press⟩ _ rfl).2 _ hx rfl
  · exact hdispatch hnil ⟨.backTab, {}, .press⟩ _ rfl _ _ (by simp)

end Keymap.Bindings

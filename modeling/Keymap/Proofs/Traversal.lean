import Mathlib.Data.List.Forall2
import Mathlib.Tactic.Common

/-! # Computations that can fail, and lists read element by element

A composition succeeds if its steps do. A traversal succeeds if every element does,
and fails with the error of the first element that does not.
-/
namespace Keymap.Traversal

variable {ε α β : Type}

theorem bind_eq_ok_iff {x : Except ε α} {f : α → Except ε β} {b : β} :
    (x >>= f) = .ok b ↔ ∃ a, x = .ok a ∧ f a = .ok b := by
  cases x with
  | error e =>
    constructor
    · intro h
      cases h
    · rintro ⟨_, ha, -⟩
      cases ha
  | ok a =>
    constructor
    · intro h
      exact ⟨a, rfl, h⟩
    · rintro ⟨_, ha, h⟩
      rw [← Except.ok.inj ha] at h
      exact h

theorem bind_eq_error_iff {x : Except ε α} {f : α → Except ε β} {e : ε} :
    (x >>= f) = .error e ↔ x = .error e ∨ ∃ a, x = .ok a ∧ f a = .error e := by
  cases x <;> simp [bind, Except.bind]

theorem exists_eq_ok_iff {x : Except ε α} : (∃ a, x = .ok a) ↔ ∀ e, x ≠ .error e := by
  cases x <;> simp

theorem map_eq_ok_iff {x : Except ε α} {g : α → β} {b : β} :
    x.map g = .ok b ↔ ∃ a, x = .ok a ∧ g a = b := by
  cases x <;> simp [Except.map]

theorem map_eq_error_iff {x : Except ε α} {g : α → β} {e : ε} :
    x.map g = .error e ↔ x = .error e := by
  cases x <;> simp [Except.map]

theorem toOption_eq_some_iff {x : Except ε α} {a : α} :
    x.toOption = some a ↔ x = .ok a := by
  cases x <;> simp [Except.toOption]

theorem bind_pure (x : Except ε α) (g : α → β) : (do let a ← x; return g a) = x.map g := by
  cases x <;> rfl

variable {f : α → Except ε β}

theorem mapM_cons_of_error {x : α} {xs : List α} {e : ε} (h : f x = .error e) :
    (x :: xs).mapM f = .error e := by
  rw [List.mapM_cons, h]
  rfl

theorem mapM_cons_of_ok {x : α} {xs : List α} {y : β} (h : f x = .ok y) :
    (x :: xs).mapM f = (xs.mapM f).map (y :: ·) := by
  rw [List.mapM_cons, h]
  cases xs.mapM f <;> rfl

theorem mapM_eq_ok_iff {xs : List α} {ys : List β} :
    xs.mapM f = .ok ys ↔ List.Forall₂ (fun x y => f x = .ok y) xs ys := by
  induction xs generalizing ys with
  | nil =>
    rw [List.forall₂_nil_left_iff]
    exact ⟨fun h => (Except.ok.inj h).symm, fun h => congrArg Except.ok h.symm⟩
  | cons x xs ih =>
    rw [List.forall₂_cons_left_iff]
    cases hx : f x with
    | error e => simp [mapM_cons_of_error hx]
    | ok y =>
      rw [mapM_cons_of_ok hx, map_eq_ok_iff]
      constructor
      · rintro ⟨zs, hzs, rfl⟩
        exact ⟨y, zs, rfl, ih.1 hzs, rfl⟩
      · rintro ⟨y', zs, hy, hzs, rfl⟩
        rw [Except.ok.inj hy]
        exact ⟨zs, ih.2 hzs, rfl⟩

theorem mapM_eq_error_iff {xs : List α} {e : ε} :
    xs.mapM f = .error e ↔ ∃ before x after, xs = before ++ x :: after ∧
      (∀ y ∈ before, ∃ z, f y = .ok z) ∧ f x = .error e := by
  induction xs with
  | nil =>
    constructor
    · intro h
      cases h
    · rintro ⟨before, x, after, h, -⟩
      cases before <;> cases h
  | cons x xs ih =>
    constructor
    · intro h
      cases hx : f x with
      | error e' =>
        rw [mapM_cons_of_error hx] at h
        exact ⟨[], x, xs, rfl, by simp, by rw [hx, Except.error.inj h]⟩
      | ok y =>
        rw [mapM_cons_of_ok hx, map_eq_error_iff] at h
        obtain ⟨before, z, after, rfl, hbefore, hz⟩ := ih.1 h
        refine ⟨x :: before, z, after, rfl, ?_, hz⟩
        intro w hw
        rcases List.mem_cons.1 hw with rfl | hw
        · exact ⟨y, hx⟩
        · exact hbefore w hw
    · rintro ⟨before, z, after, h, hbefore, hz⟩
      cases before with
      | nil =>
        obtain ⟨rfl, rfl⟩ := List.cons.inj h
        exact mapM_cons_of_error hz
      | cons w before =>
        obtain ⟨rfl, rfl⟩ := List.cons.inj h
        obtain ⟨y, hy⟩ := hbefore x List.mem_cons_self
        have hrest := ih.2 ⟨before, z, after, rfl,
          fun v hv => hbefore v (List.mem_cons_of_mem x hv), hz⟩
        rw [mapM_cons_of_ok hy, hrest]
        rfl

/-- Traversals fail alike where their elements do, whatever they come to where they succeed. -/
theorem mapM_eq_error_congr {γ : Type} {g : α → Except ε γ}
    (h : ∀ x e, f x = .error e ↔ g x = .error e) {xs : List α} {e : ε} :
    xs.mapM f = .error e ↔ xs.mapM g = .error e := by
  simp only [mapM_eq_error_iff, exists_eq_ok_iff, ne_eq, h]

theorem mapM_append_eq_error_iff {xs ys : List α} {e : ε} :
    (xs ++ ys).mapM f = .error e ↔
      xs.mapM f = .error e ∨ ∃ zs, xs.mapM f = .ok zs ∧ ys.mapM f = .error e := by
  rw [List.mapM_append]
  simp [bind_eq_error_iff, pure, Except.pure]

/-- The first failure among lists in a row is the first one of the first list that has any. -/
theorem mapM_flatMap_eq_error_iff {γ : Type} {g : γ → List α} {xs : List γ} {e : ε} :
    (xs.flatMap g).mapM f = .error e ↔ xs.mapM (fun x => (g x).mapM f) = .error e := by
  induction xs with
  | nil => simp [pure, Except.pure]
  | cons x xs ih =>
    rw [List.flatMap_cons, mapM_append_eq_error_iff, ih]
    simp [bind_eq_error_iff, pure, Except.pure]

/-- Two lists made from one are related if the elements made from each element are. -/
theorem forall₂_map_map_iff {γ : Type} {r : β → γ → Prop} {g : α → β} {h : α → γ} {xs : List α} :
    List.Forall₂ r (xs.map g) (xs.map h) ↔ ∀ x ∈ xs, r (g x) (h x) := by
  rw [List.forall₂_map_left_iff, List.forall₂_map_right_iff, List.forall₂_same]

theorem exists_mem_of_forall₂ {r : α → β → Prop} {xs : List α} {ys : List β}
    (h : List.Forall₂ r xs ys) {x : α} (hx : x ∈ xs) : ∃ y ∈ ys, r x y := by
  induction h with
  | nil => cases hx
  | @cons z y xs ys hy _ ih =>
    rcases List.mem_cons.1 hx with rfl | hx
    · exact ⟨y, List.mem_cons_self, hy⟩
    · obtain ⟨w, hw, hxw⟩ := ih hx
      exact ⟨w, List.mem_cons_of_mem y hw, hxw⟩

theorem exists_forall₂_iff {r : α → β → Prop} {xs : List α} :
    (∃ ys, List.Forall₂ r xs ys) ↔ ∀ x ∈ xs, ∃ y, r x y := by
  constructor
  · rintro ⟨ys, h⟩ x hx
    obtain ⟨y, -, hy⟩ := exists_mem_of_forall₂ h hx
    exact ⟨y, hy⟩
  · intro h
    induction xs with
    | nil => exact ⟨[], .nil⟩
    | cons x xs ih =>
      obtain ⟨y, hy⟩ := h x List.mem_cons_self
      obtain ⟨ys, hys⟩ := ih fun z hz => h z (List.mem_cons_of_mem x hz)
      exact ⟨y :: ys, .cons hy hys⟩

theorem exists_of_mem_mapM {xs : List α} {ys : List β} (h : xs.mapM f = .ok ys) {y : β}
    (hy : y ∈ ys) : ∃ x ∈ xs, f x = .ok y :=
  exists_mem_of_forall₂ (mapM_eq_ok_iff.1 h).flip hy

end Keymap.Traversal

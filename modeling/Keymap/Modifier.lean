import Keymap.Text.Basic

/-!
Modifier keys and sets of them. A set says of each modifier whether it is held, so neither order nor
repetition can be told from it.
-/
namespace Keymap

inductive Modifier where
  | control
  | alt
  | shift
  deriving DecidableEq

namespace Modifier

/-- All modifiers in the order of display. -/
def all : List Modifier := [.control, .alt, .shift]

def name : Modifier → Text
  | .control => "Control".toList
  | .alt => "Alt".toList
  | .shift => "Shift".toList

/-- The words for modifiers, in lower case. -/
def words : List (String × Modifier) :=
  [("control", .control), ("ctrl", .control), ("alt", .alt), ("shift", .shift)]

/-- The modifier of a word in any mixture of upper and lower case. -/
def ofName? (s : Text) : Option Modifier := Text.lookup words s.toLower

end Modifier

structure Modifiers where
  control : Bool := false
  alt : Bool := false
  shift : Bool := false
  deriving DecidableEq

namespace Modifiers

def none : Modifiers := {}

def has (ms : Modifiers) : Modifier → Bool
  | .control => ms.control
  | .alt => ms.alt
  | .shift => ms.shift

def insert (ms : Modifiers) : Modifier → Modifiers
  | .control => { ms with control := true }
  | .alt => { ms with alt := true }
  | .shift => { ms with shift := true }

def union (ms ns : Modifiers) : Modifiers :=
  ⟨ms.control || ns.control, ms.alt || ns.alt, ms.shift || ns.shift⟩

/-- Whether every modifier of `ns` is in `ms`. -/
def contains (ms ns : Modifiers) : Bool := Modifier.all.all fun m => !ns.has m || ms.has m

def isEmpty (ms : Modifiers) : Bool := !(ms.control || ms.alt || ms.shift)

def ofList (ms : List Modifier) : Modifiers := ms.foldl insert none

def toList (ms : Modifiers) : List Modifier := Modifier.all.filter ms.has

/-- The names of the modifiers held, with plus signs between them. -/
def display (ms : Modifiers) : Text := Text.join ['+'] (ms.toList.map Modifier.name)

theorem has_insert (ms : Modifiers) (m n : Modifier) :
    (ms.insert m).has n = (n == m || ms.has n) := by
  cases m <;> cases n <;> simp [insert, has]

theorem has_union (ms ns : Modifiers) (m : Modifier) :
    (ms.union ns).has m = (ms.has m || ns.has m) := by
  cases m <;> rfl

@[simp] theorem has_none (m : Modifier) : none.has m = false := by cases m <;> rfl

theorem ofList_append_singleton (ms : List Modifier) (m : Modifier) :
    ofList (ms ++ [m]) = (ofList ms).insert m := by
  simp [ofList]

theorem has_foldl_insert (ns : Modifiers) (ms : List Modifier) (m : Modifier) :
    (ms.foldl insert ns).has m = (ms.elem m || ns.has m) := by
  induction ms generalizing ns with
  | nil => rfl
  | cons n ms ih =>
    rw [List.foldl_cons, ih, has_insert, List.elem_cons]
    cases m == n <;> cases ms.elem m <;> rfl

theorem has_ofList (ms : List Modifier) (m : Modifier) : (ofList ms).has m = true ↔ m ∈ ms := by
  rw [ofList, has_foldl_insert, has_none, Bool.or_false, List.elem_iff]

theorem isEmpty_iff (ms : Modifiers) : ms.isEmpty = true ↔ ∀ m, ms.has m = false := by
  constructor
  · intro h m
    cases ms with
    | mk control alt shift =>
      cases m <;> simp_all [isEmpty, has]
  · intro h
    have hc := h .control
    have ha := h .alt
    have hs := h .shift
    simp_all [isEmpty, has]

theorem ext_has {ms ns : Modifiers} (h : ∀ m, ms.has m = ns.has m) : ms = ns := by
  cases ms
  cases ns
  simpa [has] using And.intro (h .control) (And.intro (h .alt) (h .shift))

/-- What two lists of modifiers hold together is the union of what each of them holds. -/
theorem ofList_append (ms ns : List Modifier) :
    ofList (ms ++ ns) = (ofList ms).union (ofList ns) := by
  apply ext_has
  intro m
  rw [Bool.eq_iff_iff, has_union, Bool.or_eq_true, has_ofList, has_ofList, has_ofList,
    List.mem_append]

theorem contains_iff {ms ns : Modifiers} : ms.contains ns ↔ ∀ m, ns.has m → ms.has m := by
  have hall (m : Modifier) : m ∈ Modifier.all := by cases m <;> decide
  rw [contains, List.all_eq_true]
  constructor
  · intro h m hm
    simpa [hm] using h m (hall m)
  · intro h m _
    cases hm : ns.has m with
    | false => rfl
    | true => simpa using h m hm

/-- A set contains another one if and only if that one adds nothing to it. -/
theorem contains_iff_union_eq {ms ns : Modifiers} : ms.contains ns ↔ ms.union ns = ms := by
  rw [contains_iff]
  constructor
  · intro h
    apply ext_has
    intro m
    rw [has_union, Bool.eq_iff_iff, Bool.or_eq_true, or_iff_left_iff_imp]
    exact h m
  · intro h m hm
    rw [← h, has_union, hm, Bool.or_true]

end Modifiers

end Keymap

import Keymap.Text.Blank

/-!
The actions that chords can be bound to, and tables with one entry for each of them.
-/
namespace Keymap

inductive Category where
  | commitCompletion
  | triggerCompletionList
  | insertNewline
  | submitInput
  deriving DecidableEq

namespace Category

/-- All categories in the order of dispatch. -/
def all : List Category := [.commitCompletion, .triggerCompletionList, .insertNewline, .submitInput]

theorem mem_all (c : Category) : c ∈ all := by cases c <;> decide

/-- The position in the order of dispatch, by which categories are compared. -/
def rank : Category → Nat
  | .commitCompletion => 0
  | .triggerCompletionList => 1
  | .insertNewline => 2
  | .submitInput => 3

instance : Ord Category where
  compare c d := compare c.rank d.rank

def name : Category → Text
  | .commitCompletion => "commit-completion".toList
  | .triggerCompletionList => "trigger-completion-list".toList
  | .insertNewline => "insert-newline".toList
  | .submitInput => "submit-input".toList

/-- The category of exactly this name. -/
def ofExactName? (s : Text) : Option Category := all.find? fun c => c.name == s

/-- The category of a name, with white space around it, in any mixture of upper and lower case, and
with underscores for hyphens. -/
def ofName? (s : Text) : Option Category :=
  ofExactName? ((Text.trim s).toLower.map fun c => if c = '_' then '-' else c)

theorem ofExactName?_name (c : Category) : ofExactName? c.name = some c := by cases c <;> decide

theorem ofExactName?_eq_some_iff {s : Text} {c : Category} :
    ofExactName? s = some c ↔ s = c.name := by
  constructor
  · intro h
    have hname := List.find?_some h
    exact (beq_iff_eq.1 hname).symm
  · rintro rfl
    exact ofExactName?_name c

end Category

/-- One value for each category. -/
structure ByCategory (α : Type) where
  commitCompletion : α
  triggerCompletionList : α
  insertNewline : α
  submitInput : α
  deriving DecidableEq

namespace ByCategory

variable {α β : Type}

def get (t : ByCategory α) : Category → α
  | .commitCompletion => t.commitCompletion
  | .triggerCompletionList => t.triggerCompletionList
  | .insertNewline => t.insertNewline
  | .submitInput => t.submitInput

def ofFun (f : Category → α) : ByCategory α :=
  ⟨f .commitCompletion, f .triggerCompletionList, f .insertNewline, f .submitInput⟩

def set (t : ByCategory α) (c : Category) (a : α) : ByCategory α :=
  match c with
  | .commitCompletion => { t with commitCompletion := a }
  | .triggerCompletionList => { t with triggerCompletionList := a }
  | .insertNewline => { t with insertNewline := a }
  | .submitInput => { t with submitInput := a }

def modify (t : ByCategory α) (c : Category) (f : α → α) : ByCategory α := t.set c (f (t.get c))

/-- The entries with their categories, in the order of dispatch. -/
def toList (t : ByCategory α) : List (Category × α) := Category.all.map fun c => (c, t.get c)

/-- A table computed entry by entry, in the order of dispatch. -/
def ofFunM {m : Type → Type} [Monad m] (f : Category → m α) : m (ByCategory α) := do
  let commit ← f .commitCompletion
  let trigger ← f .triggerCompletionList
  let newline ← f .insertNewline
  let submit ← f .submitInput
  return ⟨commit, trigger, newline, submit⟩

@[simp] theorem get_ofFun (f : Category → α) (c : Category) : (ofFun f).get c = f c := by
  cases c <;> rfl

theorem get_set (t : ByCategory α) (c d : Category) (a : α) :
    (t.set c a).get d = if d = c then a else t.get d := by
  cases c <;> cases d <;> rfl

theorem ext_get {t u : ByCategory α} (h : ∀ c, t.get c = u.get c) : t = u := by
  cases t
  cases u
  simpa [get] using
    And.intro (h .commitCompletion) (And.intro (h .triggerCompletionList)
      (And.intro (h .insertNewline) (h .submitInput)))

end ByCategory

/-- Patterns by category as they are written in a configuration, unparsed. An empty list stands for
the built-in default. -/
abbrev Config := ByCategory (List Text)

namespace Config

/-- The configuration without any pattern. -/
def empty : Config := ByCategory.ofFun fun _ => []

/-- The patterns of the second configuration where it has any, and those of the first elsewhere. -/
def override (config overrides : Config) : Config :=
  ByCategory.ofFun fun c =>
    if (overrides.get c).isEmpty then config.get c else overrides.get c

def push (config : Config) (c : Category) (pattern : Text) : Config :=
  config.modify c (· ++ [pattern])

end Config

end Keymap

import Keymap.Json.Token
import Keymap.Category

/-!
Reading configurations and category names from JSON. A configuration is an object with a field for
each configured category, or a list with the patterns of the categories in the order of dispatch;
what is missing is empty, and fields of other names are passed over. Reading goes from left to right
and ends at the first fault.
-/
namespace Keymap.Json

/-- The fault of a token where a value of another kind should stand. -/
def Token.misplaced : Token → Fault
  | .openList | .openObject | .null | .boolean => .mismatch
  | .number inRange => if inRange then .mismatch else .malformed
  | .string (.ok _) => .mismatch
  | .string (.error fault) => fault
  | .brokenString read _ => read
  | .broken read _ => read
  | .closeList | .closeObject | .comma | .colon => .malformed

/-! ## Passing over a value -/

inductive Bracket where
  | list
  | object
  deriving DecidableEq

/-- What has to come next inside a value that is passed over. -/
inductive Awaited where
  | value
  /-- A value, or the end of the list that has just been opened. -/
  | firstElement
  | name
  /-- A name, or the end of the object that has just been opened. -/
  | firstName
  | colon
  /-- A comma, or the end of the innermost bracket. -/
  | commaOrEnd
  deriving DecidableEq

structure Passing where
  awaited : Awaited
  /-- The brackets that are open, the innermost first. -/
  brackets : List Bracket
  deriving DecidableEq

namespace Passing

/-- Whether the value is at its end. -/
def isDone (state : Passing) : Bool := state.awaited == .commaOrEnd && state.brackets.isEmpty

def stepValue (brackets : List Bracket) : Token → Except Fault Passing
  | .openList => .ok ⟨.firstElement, .list :: brackets⟩
  | .openObject => .ok ⟨.firstName, .object :: brackets⟩
  | .null | .boolean | .number _ | .string _ => .ok ⟨.commaOrEnd, brackets⟩
  | .brokenString _ passed => .error passed
  | .broken _ passed => .error passed
  | .closeList | .closeObject | .comma | .colon => .error .malformed

def stepName (brackets : List Bracket) : Token → Except Fault Passing
  | .string _ => .ok ⟨.colon, brackets⟩
  | .brokenString _ passed => .error passed
  | _ => .error .malformed

def stepEnd : List Bracket → Token → Except Fault Passing
  | .list :: outer, .closeList => .ok ⟨.commaOrEnd, outer⟩
  | .object :: outer, .closeObject => .ok ⟨.commaOrEnd, outer⟩
  | .list :: outer, .comma => .ok ⟨.value, .list :: outer⟩
  | .object :: outer, .comma => .ok ⟨.name, .object :: outer⟩
  | _, _ => .error .malformed

def step (state : Passing) (token : Token) : Except Fault Passing :=
  match state.awaited, token with
  | .value, _ => stepValue state.brackets token
  | .firstElement, .closeList => .ok ⟨.commaOrEnd, state.brackets.tail⟩
  | .firstElement, _ => stepValue state.brackets token
  | .name, _ => stepName state.brackets token
  | .firstName, .closeObject => .ok ⟨.commaOrEnd, state.brackets.tail⟩
  | .firstName, _ => stepName state.brackets token
  | .colon, .colon => .ok ⟨.value, state.brackets⟩
  | .colon, _ => .error .malformed
  | .commaOrEnd, _ => stepEnd state.brackets token

/-- The tokens behind the value. -/
def run (state : Passing) : List Token → Except Fault (List Token)
  | [] => if state.isDone then .ok [] else .error .incomplete
  | token :: rest => do
    if state.isDone then return token :: rest
    else run (← state.step token) rest

end Passing

def passValue (tokens : List Token) : Except Fault (List Token) :=
  Passing.run ⟨.value, []⟩ tokens

/-! ## Lists of strings -/

/-- The strings of a list from behind one of its elements on. -/
def readMoreStrings : List Token → Except Fault (List Text × List Token)
  | [] => .error .incomplete
  | .closeList :: rest => .ok ([], rest)
  | .comma :: .string (.ok s) :: rest => do
    let (more, after) ← readMoreStrings rest
    return (s :: more, after)
  | .comma :: token :: _ => .error token.misplaced
  | [.comma] => .error .incomplete
  | _ :: _ => .error .malformed

/-- A list of strings. -/
def readStrings : List Token → Except Fault (List Text × List Token)
  | [] => .error .incomplete
  | [.openList] => .error .incomplete
  | .openList :: .closeList :: rest => .ok ([], rest)
  | .openList :: .string (.ok s) :: rest => do
    let (more, after) ← readMoreStrings rest
    return (s :: more, after)
  | .openList :: token :: _ => .error token.misplaced
  | token :: _ => .error token.misplaced

theorem length_readMoreStrings {ts rest : List Token} {texts : List Text}
    (h : readMoreStrings ts = .ok (texts, rest)) : rest.length < ts.length := by
  fun_induction readMoreStrings ts generalizing texts with
  | case2 => simp_all
  | case3 s ts ih =>
    cases hr : readMoreStrings ts with
    | error f => rw [hr] at h; cases h
    | ok p =>
      rw [hr] at h
      cases h
      have := ih hr
      simp only [List.length_cons]
      omega
  | _ => simp at h

theorem length_readStrings {ts rest : List Token} {texts : List Text}
    (h : readStrings ts = .ok (texts, rest)) : rest.length < ts.length := by
  unfold readStrings at h
  split at h
  case h_3 =>
    cases h
    simp only [List.length_cons]
    omega
  case h_4 s ts =>
    cases hr : readMoreStrings ts with
    | error f => rw [hr] at h; cases h
    | ok p =>
      rw [hr] at h
      cases h
      have := length_readMoreStrings hr
      simp only [List.length_cons]
      omega
  all_goals simp at h

theorem length_run_le {state : Passing} {ts rest : List Token} (h : state.run ts = .ok rest) :
    rest.length ≤ ts.length := by
  induction ts generalizing state with
  | nil =>
    simp only [Passing.run] at h
    split at h <;> cases h
    exact Nat.le_refl _
  | cons t ts ih =>
    simp only [Passing.run] at h
    split at h
    · cases h
      exact Nat.le_refl _
    · cases hs : state.step t with
      | error f => rw [hs] at h; cases h
      | ok next =>
        rw [hs] at h
        exact Nat.le_succ_of_le (ih h)

/-! ## Configurations -/

/-- The fields read so far. -/
abbrev Fields := ByCategory (Option (List Text))

def noFields : Fields := ByCategory.ofFun fun _ => none

def Fields.config (fields : Fields) : Config := ByCategory.ofFun fun c => (fields.get c).getD []

/-- The colon behind the name of a field. -/
def readColon : List Token → Except Fault (List Token)
  | [] => .error .incomplete
  | .colon :: rest => .ok rest
  | _ :: _ => .error .malformed

theorem length_readColon {ts rest : List Token} (h : readColon ts = .ok rest) :
    rest.length < ts.length := by
  unfold readColon at h
  split at h <;> cases h
  simp

/-- A field behind its name. A category may have only one field; a second one is refused at its
name. -/
def readField (fields : Fields) (name : Text) (ts : List Token) :
    Except Fault (Fields × List Token) :=
  match Category.ofExactName? name with
  | some c =>
    if (fields.get c).isSome then .error .mismatch
    else do
      let (patterns, rest) ← readStrings (← readColon ts)
      return (fields.set c (some patterns), rest)
  | none => do
    let rest ← passValue (← readColon ts)
    return (fields, rest)

theorem length_readField {fields after : Fields} {name : Text} {ts rest : List Token}
    (h : readField fields name ts = .ok (after, rest)) : rest.length < ts.length := by
  unfold readField at h
  split at h
  · split at h
    · cases h
    · cases hc : readColon ts with
      | error f => rw [hc] at h; cases h
      | ok us =>
        rw [hc] at h
        cases hs : readStrings us with
        | error f => simp only [bind, Except.bind, hs] at h; cases h
        | ok p =>
          simp only [bind, Except.bind, hs] at h
          cases h
          exact Nat.lt_trans (length_readStrings hs) (length_readColon hc)
  · cases hc : readColon ts with
    | error f => rw [hc] at h; cases h
    | ok us =>
      rw [hc] at h
      cases hs : passValue us with
      | error f => simp only [bind, Except.bind, hs] at h; cases h
      | ok p =>
        simp only [bind, Except.bind, hs] at h
        cases h
        exact Nat.lt_of_le_of_lt (length_run_le hs) (length_readColon hc)

/-- The fields of an object from a name on. -/
def readFields (fields : Fields) (ts : List Token) : Except Fault (Fields × List Token) :=
  match ts with
  | [] => .error .incomplete
  | .string (.ok name) :: rest =>
    match _read : readField fields name rest with
    | .error fault => .error fault
    | .ok (_, []) => .error .incomplete
    | .ok (fields, .closeObject :: after) => .ok (fields, after)
    | .ok (fields, .comma :: after) => readFields fields after
    | .ok (_, _ :: _) => .error .malformed
  | .string (.error fault) :: _ => .error fault
  | .brokenString fault _ :: _ => .error fault
  | _ :: _ => .error .malformed
termination_by ts.length
decreasing_by
  have := length_readField _read
  simp only [List.length_cons] at this ⊢
  omega

/-- The patterns of the categories from a place in a list on, of which the element before has just
been read unless it is the first. -/
def readPositional (fields : Fields) (first : Bool) :
    List Category → List Token → Except Fault (Fields × List Token)
  | _, [] => .error .incomplete
  | _, .closeList :: rest => .ok (fields, rest)
  | [], _ :: _ => .error .malformed
  | c :: cs, token :: rest => do
    let elementTokens ←
      match first, token with
      | true, _ => pure (token :: rest)
      | false, .comma => pure rest
      | false, _ => throw .malformed
    let (patterns, after) ← readStrings elementTokens
    readPositional (fields.set c (some patterns)) false cs after

def readConfig : List Token → Except Fault (Config × List Token)
  | [] => .error .incomplete
  | .openList :: rest => do
    let (fields, after) ← readPositional noFields true Category.all rest
    return (fields.config, after)
  | .openObject :: .closeObject :: rest => .ok (Config.empty, rest)
  | .openObject :: rest => do
    let (fields, after) ← readFields noFields rest
    return (fields.config, after)
  | token :: _ => .error token.misplaced

/-! ## Category names -/

def readCategoryName (name : Text) : Except Fault Category :=
  match Category.ofExactName? name with
  | some c => .ok c
  | none => .error .mismatch

/-- A category: its name, or an object with one field of that name and no value. -/
def readCategory : List Token → Except Fault (Category × List Token)
  | [] => .error .incomplete
  | [.openObject] => .error .incomplete
  | .string (.ok name) :: rest => do return (← readCategoryName name, rest)
  | .string (.error fault) :: _ => .error fault
  | .brokenString fault _ :: _ => .error fault
  | .openObject :: .string (.ok name) :: rest => do
    let c ← readCategoryName name
    match ← readColon rest with
    | [] => .error .incomplete
    | [.null] => .error .incomplete
    | .null :: .closeObject :: after => return (c, after)
    | .null :: _ => .error .malformed
    | token :: _ => .error token.misplaced
  | .openObject :: token :: _ => .error token.misplaced
  | _ :: _ => .error .malformed

/-! ## Whole texts -/

/-- The value of a text that holds nothing else. -/
def readWhole {α : Type} (read : List Token → Except Fault (α × List Token)) (s : Text) :
    Except Fault α := do
  match ← read (tokens s) with
  | (value, []) => return value
  | (_, _ :: _) => throw .malformed

def parseConfig (s : Text) : Except Fault Config := readWhole readConfig s

def parseCategory (s : Text) : Except Fault Category := readWhole readCategory s

end Keymap.Json

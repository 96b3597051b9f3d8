import Keymap.Proofs.ConfigFile.Variables

/-! # One pass over a value

The meaning of a value is said of its pieces, for any table of variables: the leftmost
reference without a variable is an error, and otherwise each reference gives way to the
text of its variable as it stands. Main statement: substitution decides this meaning, and
it comes to the same as a search for undefined references with a replacement behind it,
where the text kept ready for undefined ones is never put in.
-/
namespace Keymap

namespace Piece

def name? : Piece → Option Text
  | plain _ => none
  | reference name => some name

def replace (f : Text → Text) : Piece → Text
  | plain c => [c]
  | reference name => f name

end Piece

namespace Variables

open Piece (Pieces)

/-- The text that stands in a pattern for a piece of the value. -/
inductive Gives (vars : Variables) : Piece → Text → Prop
  | plain (c : Char) : Gives vars (.plain c) [c]
  | reference {name value} (h : vars.value? name = some value) : Gives vars (.reference name) value

/-- What comes of a value. Its pieces are read from left to right, and the texts put in for its
references are not read again. -/
inductive Substitution (vars : Variables) (value : Text) : Except Text Text → Prop
  | undefined {before name after} (h : Pieces value (before ++ .reference name :: after))
      (hbefore : ∀ other, .reference other ∈ before → ∃ v, vars.value? other = some v)
      (hname : vars.value? name = none) : Substitution vars value (.error name)
  | replaced {pieces texts} (h : Pieces value pieces)
      (htexts : List.Forall₂ (Gives vars) pieces texts) :
      Substitution vars value (.ok texts.flatten)

def references (value : Text) : List Text := (Piece.ofText value).filterMap Piece.name?

def replaceReferences (f : Text → Text) (value : Text) : Text :=
  (Piece.ofText value).flatMap (Piece.replace f)

/-- A search for a reference without a variable and, if there is none, a replacement of all
references, with `otherwise` in the place of those that have no variable. -/
def substituteInTwoPasses (vars : Variables) (otherwise value : Text) : Except Text Text :=
  match (references value).find? fun name => (vars.value? name).isNone with
  | some name => .error name
  | none => .ok (replaceReferences (fun name => (vars.value? name).getD otherwise) value)

variable {vars : Variables}

theorem expand_eq_ok_iff_gives {piece : Piece} {t : Text} :
    piece.expand vars = .ok t ↔ Gives vars piece t := by
  cases piece with
  | plain c =>
    constructor
    · intro h
      obtain rfl := Except.ok.inj h
      exact .plain c
    · intro h
      cases h
      rfl
  | reference name =>
    rw [expand_reference_eq_ok_iff]
    constructor
    · exact .reference
    · intro h
      cases h with
      | reference h => exact h

theorem exists_expand_eq_ok_iff {piece : Piece} :
    (∃ t, piece.expand vars = .ok t) ↔
      ∀ name, piece = .reference name → ∃ v, vars.value? name = some v := by
  cases piece with
  | plain c => simp [Piece.expand]
  | reference name => simp [expand_reference_eq_ok_iff]

theorem substitute_eq_iff {value : Text} {r : Except Text Text} :
    vars.substitute value = r ↔ Substitution vars value r := by
  rw [substitute_eq]
  cases r with
  | ok pattern =>
    rw [Traversal.map_eq_ok_iff]
    simp only [Traversal.mapM_eq_ok_iff, expand_eq_ok_iff_gives]
    constructor
    · rintro ⟨texts, htexts, rfl⟩
      exact .replaced (Piece.pieces_ofText value) htexts
    · intro h
      cases h with
      | @replaced pieces texts h htexts =>
        rw [h.ofText_eq]
        exact ⟨texts, htexts, rfl⟩
  | error name =>
    rw [Traversal.map_eq_error_iff, Traversal.mapM_eq_error_iff]
    simp only [exists_expand_eq_ok_iff, expand_eq_error_iff_undefined]
    constructor
    · rintro ⟨before, _, after, hpieces, hbefore, rfl, hname⟩
      refine .undefined (Piece.ofText_eq_iff_pieces.1 hpieces) ?_ hname
      intro other hother
      exact hbefore _ hother other rfl
    · intro h
      cases h with
      | @undefined before _ after h hbefore hname =>
        refine ⟨before, _, after, h.ofText_eq, ?_, rfl, hname⟩
        rintro piece hpiece other rfl
        exact hbefore other hpiece

theorem map_flatten_map_cons {ε : Type} (x : Except ε (List Text)) (t : Text) :
    (x.map (t :: ·)).map List.flatten = (x.map List.flatten).map (t ++ ·) := by
  cases x <;> rfl

/-- The two passes go through the pieces of a value as the single one does. -/
theorem map_flatten_mapM_expand (otherwise : Text) (pieces : List Piece) :
    (pieces.mapM (Piece.expand vars)).map List.flatten =
      match (pieces.filterMap Piece.name?).find? fun name => (vars.value? name).isNone with
      | some name => .error name
      | none => .ok (pieces.flatMap
          (Piece.replace fun name => (vars.value? name).getD otherwise)) := by
  induction pieces with
  | nil => rfl
  | cons piece pieces ih =>
    cases piece with
    | plain c =>
      have hexpand : (Piece.plain c).expand vars = .ok [c] := rfl
      rw [Traversal.mapM_cons_of_ok hexpand, map_flatten_map_cons, ih,
        List.filterMap_cons_none rfl, List.flatMap_cons]
      split <;> rfl
    | reference name =>
      rw [List.filterMap_cons_some (f := Piece.name?) rfl, List.flatMap_cons, Piece.replace]
      cases hv : vars.value? name with
      | none =>
        have hexpand : (Piece.reference name).expand vars = .error name :=
          expand_eq_error_iff_undefined.2 ⟨rfl, hv⟩
        rw [Traversal.mapM_cons_of_error hexpand, List.find?_cons_of_pos (by simp [hv])]
        rfl
      | some value =>
        have hexpand : (Piece.reference name).expand vars = .ok value :=
          expand_reference_eq_ok_iff.2 hv
        rw [Traversal.mapM_cons_of_ok hexpand, map_flatten_map_cons, ih,
          List.find?_cons_of_neg (by simp [hv])]
        split <;> rfl

theorem substituteInTwoPasses_eq (otherwise value : Text) :
    vars.substituteInTwoPasses otherwise value = vars.substitute value := by
  rw [substitute_eq, map_flatten_mapM_expand otherwise]
  rfl

/-- Substitution goes through a value once. It fails with the leftmost reference that has no
variable; if there is none, it puts the text of its variable in the place of each reference, as the
text stands, and leaves everything else as it is. To look for undefined references first and to
replace in a second pass comes to the same, whatever text is kept ready for references without a
variable, since none is left by then. -/
theorem substitute_eq_iff_substitution (vars : Variables) (value : Text) :
    (∀ r, vars.substitute value = r ↔ Substitution vars value r) ∧
      ∀ otherwise, vars.substituteInTwoPasses otherwise value = vars.substitute value :=
  ⟨fun _ => substitute_eq_iff, fun otherwise => substituteInTwoPasses_eq otherwise value⟩

/-- References next to each other and to bare dollar signs, a name that starts like another one, and
a variable with a dollar sign in its text. -/
example :
    let vars : Variables := [("mod".toList, "$modx".toList), ("modx".toList, "Alt".toList)]
    vars.substitute "$$mod$modx+$".toList = .ok "$$modxAlt+$".toList ∧
      vars.substitute "$mody$x$mod".toList = .error "mody".toList :=
  ⟨rfl, rfl⟩

end Variables

end Keymap

import Keymap.Proofs.ConfigFile.Line
import Keymap.Proofs.Traversal

/-! # Variables and references

A variable has the value of its last definition, wherever it is referred to. The
pieces of a value are said by a grammar, and a value is substituted if each of its
references has a definition.
-/
namespace Keymap

namespace Variables

def Defines (line name value : Text) : Prop :=
  ∃ rest, Text.trim line = '$' :: rest ∧ Assignment.Reads rest (.ok ⟨name, value⟩)

def LastDefinition (lines : List Text) (name value : Text) : Prop :=
  ∃ before line after, lines = before ++ line :: after ∧ Defines line name value ∧
    ∀ other ∈ after, ∀ v, ¬ Defines other name v

/-- The variables that the lines define, the latest definition first. -/
def ofLines (lines : List Text) : Variables :=
  ((lines.filterMap fun line => (Assignment.ofDefinition (Text.trim line)).toOption).map
    fun a => (a.name, a.value)).reverse

theorem ofFile_eq_ofLines (content : Text) : ofFile content = ofLines (Text.lines content) := rfl

theorem ofDefinition_eq_ok_iff {line : Text} {a : Assignment} :
    Assignment.ofDefinition (Text.trim line) = .ok a ↔ Defines line a.name a.value :=
  Assignment.ofDefinition_eq_ok_iff

theorem value?_ofLines_singleton {line name value : Text} :
    (ofLines [line]).value? name = some value ↔ Defines line name value := by
  cases h : Assignment.ofDefinition (Text.trim line) with
  | error e =>
    have hnone : ofLines [line] = [] := by simp [ofLines, h, Except.toOption]
    rw [hnone]
    constructor
    · intro hv
      cases hv
    · intro hd
      rw [ofDefinition_eq_ok_iff (a := ⟨name, value⟩) |>.2 hd] at h
      cases h
  | ok a =>
    have hone : ofLines [line] = [(a.name, a.value)] := by simp [ofLines, h, Except.toOption]
    rw [hone, value?, List.lookup_cons]
    constructor
    · intro hv
      by_cases hname : name = a.name
      · rw [hname, beq_self_eq_true] at hv
        rw [hname, ← Option.some.inj hv]
        exact ofDefinition_eq_ok_iff.1 h
      · rw [beq_false_of_ne hname] at hv
        cases hv
    · intro hd
      rw [ofDefinition_eq_ok_iff (a := ⟨name, value⟩) |>.2 hd] at h
      obtain rfl := Except.ok.inj h
      rw [beq_self_eq_true]

theorem ofLines_cons (line : Text) (lines : List Text) :
    ofLines (line :: lines) = ofLines lines ++ ofLines [line] := by
  rw [ofLines, ofLines, ofLines, ← List.reverse_append, ← List.map_append,
    ← List.filterMap_append]
  rfl

theorem value?_ofLines_cons (line : Text) (lines : List Text) (name : Text) :
    (ofLines (line :: lines)).value? name =
      ((ofLines lines).value? name).or ((ofLines [line]).value? name) := by
  rw [ofLines_cons]
  exact List.lookup_append

theorem value?_ofLines_eq_none_iff {lines : List Text} {name : Text} :
    (ofLines lines).value? name = none ↔ ∀ line ∈ lines, ∀ v, ¬ Defines line name v := by
  induction lines with
  | nil => simp [ofLines, value?]
  | cons line lines ih =>
    rw [value?_ofLines_cons, Option.or_eq_none_iff, ih, List.forall_mem_cons, and_comm,
      Option.eq_none_iff_forall_ne_some]
    simp only [ne_eq, value?_ofLines_singleton]

theorem lastDefinition_cons {line : Text} {lines : List Text} {name value : Text} :
    LastDefinition (line :: lines) name value ↔ LastDefinition lines name value ∨
      (Defines line name value ∧ ∀ other ∈ lines, ∀ v, ¬ Defines other name v) := by
  constructor
  · rintro ⟨before, last, after, heq, hlast, hafter⟩
    cases before with
    | nil =>
      obtain ⟨rfl, rfl⟩ := List.cons.inj heq
      exact Or.inr ⟨hlast, hafter⟩
    | cons first before =>
      obtain ⟨rfl, rfl⟩ := List.cons.inj heq
      exact Or.inl ⟨before, last, after, rfl, hlast, hafter⟩
  · rintro (⟨before, last, after, rfl, hlast, hafter⟩ | ⟨hline, hlines⟩)
    · exact ⟨line :: before, last, after, rfl, hlast, hafter⟩
    · exact ⟨[], line, lines, rfl, hline, hlines⟩

/-- The first pass finds the last definition of every variable. -/
theorem value?_ofLines_eq_some_iff {lines : List Text} {name value : Text} :
    (ofLines lines).value? name = some value ↔ LastDefinition lines name value := by
  induction lines with
  | nil =>
    constructor
    · intro h
      cases h
    · rintro ⟨before, line, after, h, -⟩
      cases before <;> cases h
  | cons line lines ih =>
    rw [value?_ofLines_cons, Option.or_eq_some_iff, ih, value?_ofLines_eq_none_iff,
      value?_ofLines_singleton, lastDefinition_cons, and_comm (a := ∀ line ∈ lines, _)]

end Variables

namespace Piece

/-- The pieces of a value: references are read from the left and take in all that they can. -/
inductive Pieces : Text → List Piece → Prop
  | nil : Pieces [] []
  | plain {c rest pieces} (hc : c = '$' → Text.Run isReferenceChar rest [] rest)
      (h : Pieces rest pieces) : Pieces (c :: rest) (.plain c :: pieces)
  | reference {name rest tail pieces} (hname : Text.Run isReferenceChar rest name tail)
      (hne : name ≠ []) (h : Pieces tail pieces) :
      Pieces ('$' :: rest) (.reference name :: pieces)

theorem ofText_of_reference {rest : Text} (h : rest.takeWhile isReferenceChar ≠ []) :
    ofText ('$' :: rest) =
      .reference (rest.takeWhile isReferenceChar) :: ofText (rest.dropWhile isReferenceChar) := by
  rw [ofText, if_pos ⟨rfl, h⟩, ← drop_ofText]

theorem Pieces.ofText_eq {s : Text} {pieces : List Piece} (h : Pieces s pieces) :
    ofText s = pieces := by
  induction h with
  | nil => rfl
  | @plain c rest pieces hc _ ih =>
    have hplain : ¬ (c = '$' ∧ rest.takeWhile isReferenceChar ≠ []) :=
      fun hdollar => hdollar.2 (hc hdollar.1).takeWhile_eq
    rw [ofText, if_neg hplain, ih]
  | @reference name rest tail pieces hname hne _ ih =>
    rw [← hname.takeWhile_eq] at hne
    rw [ofText_of_reference hne, hname.takeWhile_eq, hname.dropWhile_eq, ih]

theorem pieces_ofText (s : Text) : Pieces s (ofText s) := by
  induction hn : s.length using Nat.strong_induction_on generalizing s with
  | h n ih =>
    cases s with
    | nil => exact .nil
    | cons c rest =>
      have hrun := Text.run_takeWhile isReferenceChar rest
      have hlen : (rest.dropWhile isReferenceChar).length < n := by
        have := (List.dropWhile_sublist isReferenceChar (l := rest)).length_le
        simp only [← hn, List.length_cons]
        omega
      by_cases hc : c = '$' ∧ rest.takeWhile isReferenceChar ≠ []
      · obtain ⟨rfl, hne⟩ := hc
        rw [ofText_of_reference hne]
        exact .reference hrun hne (ih _ hlen _ rfl)
      · rw [ofText, if_neg hc]
        refine .plain ?_ (ih rest.length (by simp [← hn]) rest rfl)
        intro hdollar
        have hnil : rest.takeWhile isReferenceChar = [] := by
          by_contra hne
          exact hc ⟨hdollar, hne⟩
        have hrest := hrun.eq
        rw [hnil, List.nil_append] at hrest
        rw [hnil, ← hrest] at hrun
        exact hrun

theorem ofText_eq_iff_pieces {s : Text} {pieces : List Piece} :
    ofText s = pieces ↔ Pieces s pieces := by
  constructor
  · rintro rfl
    exact pieces_ofText s
  · exact Pieces.ofText_eq

/-- A text without a dollar sign refers to nothing. -/
theorem pieces_plain {s : Text} (h : '$' ∉ s) : Pieces s (s.map plain) := by
  induction s with
  | nil => exact .nil
  | cons c s ih =>
    refine .plain ?_ (ih fun hs => h (List.mem_cons_of_mem c hs))
    rintro rfl
    exact absurd List.mem_cons_self h

end Piece

namespace Variables

/-- What a piece comes to where these lines define the variables. -/
inductive Stands (lines : List Text) : Piece → Text → Prop
  | plain (c : Char) : Stands lines (.plain c) [c]
  | reference {name value} (h : LastDefinition lines name value) :
      Stands lines (.reference name) value

def Substituted (lines : List Text) (value pattern : Text) : Prop :=
  ∃ pieces texts, Piece.Pieces value pieces ∧ List.Forall₂ (Stands lines) pieces texts ∧
    pattern = texts.flatten

/-- The leftmost reference of the value to a variable that no line defines. -/
def FirstUndefined (lines : List Text) (value name : Text) : Prop :=
  ∃ before after, Piece.Pieces value (before ++ .reference name :: after) ∧
    (∀ other, .reference other ∈ before → ∃ v, LastDefinition lines other v) ∧
    ∀ v, ¬ LastDefinition lines name v

theorem expand_reference_eq_ok_iff {vars : Variables} {name t : Text} :
    (Piece.reference name).expand vars = .ok t ↔ vars.value? name = some t := by
  rw [Piece.expand]
  cases vars.value? name <;> simp

theorem expand_eq_error_iff_undefined {vars : Variables} {piece : Piece} {name : Text} :
    piece.expand vars = .error name ↔ piece = .reference name ∧ vars.value? name = none := by
  cases piece with
  | plain c => simp [Piece.expand]
  | reference other =>
    rw [Piece.expand, Piece.reference.injEq]
    constructor
    · intro h
      cases hv : vars.value? other with
      | none =>
        rw [hv] at h
        obtain rfl := Except.error.inj h
        exact ⟨rfl, hv⟩
      | some v =>
        rw [hv] at h
        cases h
    · rintro ⟨rfl, h⟩
      rw [h]

theorem expand_eq_ok_iff {lines : List Text} {piece : Piece} {t : Text} :
    piece.expand (ofLines lines) = .ok t ↔ Stands lines piece t := by
  cases piece with
  | plain c =>
    constructor
    · intro h
      obtain rfl := Except.ok.inj h
      exact .plain c
    · intro h
      cases h
      rfl
  | reference name =>
    rw [expand_reference_eq_ok_iff, value?_ofLines_eq_some_iff]
    constructor
    · exact .reference
    · intro h
      cases h with
      | reference h => exact h

theorem expand_eq_error_iff {lines : List Text} {piece : Piece} {name : Text} :
    piece.expand (ofLines lines) = .error name ↔
      piece = .reference name ∧ ∀ v, ¬ LastDefinition lines name v := by
  rw [expand_eq_error_iff_undefined, Option.eq_none_iff_forall_ne_some]
  simp only [ne_eq, value?_ofLines_eq_some_iff]

theorem exists_stands_iff {lines : List Text} {piece : Piece} :
    (∃ t, Stands lines piece t) ↔
      ∀ name, piece = .reference name → ∃ v, LastDefinition lines name v := by
  constructor
  · rintro ⟨t, h⟩ name rfl
    cases h with
    | reference h => exact ⟨t, h⟩
  · intro h
    cases piece with
    | plain c => exact ⟨[c], .plain c⟩
    | reference name =>
      obtain ⟨v, hv⟩ := h name rfl
      exact ⟨v, .reference hv⟩

theorem substitute_eq (vars : Variables) (value : Text) :
    vars.substitute value =
      ((Piece.ofText value).mapM (Piece.expand vars)).map List.flatten :=
  Traversal.bind_pure _ _

theorem substitute_eq_ok_iff {lines : List Text} {value pattern : Text} :
    (ofLines lines).substitute value = .ok pattern ↔ Substituted lines value pattern := by
  rw [substitute_eq, Traversal.map_eq_ok_iff]
  simp only [Traversal.mapM_eq_ok_iff, expand_eq_ok_iff]
  constructor
  · rintro ⟨texts, htexts, rfl⟩
    exact ⟨_, texts, Piece.pieces_ofText value, htexts, rfl⟩
  · rintro ⟨pieces, texts, hpieces, htexts, rfl⟩
    rw [← hpieces.ofText_eq] at htexts
    exact ⟨texts, htexts, rfl⟩

theorem substitute_eq_error_iff {lines : List Text} {value name : Text} :
    (ofLines lines).substitute value = .error name ↔ FirstUndefined lines value name := by
  rw [substitute_eq, Traversal.map_eq_error_iff, Traversal.mapM_eq_error_iff]
  simp only [expand_eq_ok_iff, expand_eq_error_iff, exists_stands_iff]
  constructor
  · rintro ⟨before, piece, after, hpieces, hbefore, rfl, hname⟩
    refine ⟨before, after, Piece.ofText_eq_iff_pieces.1 hpieces, ?_, hname⟩
    intro other hother
    exact hbefore _ hother other rfl
  · rintro ⟨before, after, hpieces, hbefore, hname⟩
    refine ⟨before, _, after, hpieces.ofText_eq, ?_, rfl, hname⟩
    rintro piece hpiece other rfl
    exact hbefore other hpiece

end Variables

end Keymap

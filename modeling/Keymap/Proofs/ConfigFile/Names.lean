import Keymap.Proofs.ConfigFile.Variables

/-! # Names in definitions and in references

A definition takes letters and digits of every script in its name, and a reference only
those of ASCII. A reference to any other name ends before the first character that it does
not take. Main statement: definitions and references agree on a name in every file exactly
if all of it can stand in a reference.
-/
namespace Keymap

open Assignment (isNameChar)
open Piece (isReferenceChar)

namespace Variables

def IsName (name : Text) : Prop := ∃ line value, Assignment.ofDefinition line = .ok ⟨name, value⟩

def emptyDefinition (name : Text) : Text := '$' :: (name ++ ['='])

theorem reads_emptyDefinition {name : Text} (hne : name ≠ [])
    (hall : ∀ c ∈ name, isNameChar c = true) :
    Assignment.Reads (name ++ ['=']) (.ok ⟨name, []⟩) := by
  have hname : Text.Run isNameChar (name ++ ['=']) name ['='] := by
    refine ⟨rfl, hall, ?_⟩
    intro c hc
    rw [← Option.some.inj hc]
    decide +kernel
  have hgap : Text.Run Assignment.isGap ['='] [] ['='] := Text.run_takeWhile _ _
  have hgap' : Text.Run Assignment.isGap [] [] [] := Text.run_takeWhile _ _
  exact .assignment hname hne hgap hgap'

theorem isName_iff {name : Text} :
    IsName name ↔ name ≠ [] ∧ ∀ c ∈ name, isNameChar c = true := by
  constructor
  · rintro ⟨line, value, h⟩
    obtain ⟨rest, -, hreads⟩ := Assignment.ofDefinition_eq_ok_iff.1 h
    cases hreads with
    | assignment hname hne _ _ => exact ⟨hne, hname.all⟩
  · rintro ⟨hne, hall⟩
    exact ⟨emptyDefinition name, [], (reads_emptyDefinition hne hall).ofText_eq⟩

theorem dollar_not_mem_of_isName {name : Text} (h : IsName name) : '$' ∉ name := by
  intro hd
  have hdollar := (isName_iff.1 h).2 '$' hd
  revert hdollar
  decide +kernel

/-! ## What a single reference comes to -/

theorem mapM_expand_plain (vars : Variables) (s : Text) :
    (s.map Piece.plain).mapM (Piece.expand vars) = .ok (s.map fun c => [c]) := by
  rw [Traversal.mapM_eq_ok_iff, Traversal.forall₂_map_map_iff]
  intro c _
  rfl

/-- A dollar sign without a name stands for itself. -/
theorem substitute_bare {vars : Variables} {s : Text} (h : Text.Run isReferenceChar s [] s)
    (hd : '$' ∉ s) : vars.substitute ('$' :: s) = .ok ('$' :: s) := by
  have hpieces : Piece.ofText ('$' :: s) = ('$' :: s).map Piece.plain :=
    (Piece.Pieces.plain (fun _ => h) (Piece.pieces_plain hd)).ofText_eq
  rw [substitute_eq, hpieces, mapM_expand_plain]
  simp [Except.map, ← List.flatMap_def]

/-- A reference is as long as it can be, and what follows it stands for itself. -/
theorem substitute_reference {vars : Variables} {s head tail : Text}
    (h : Text.Run isReferenceChar s head tail) (hne : head ≠ []) (hd : '$' ∉ tail) :
    vars.substitute ('$' :: s) =
      match vars.value? head with
      | some value => .ok (value ++ tail)
      | none => .error head := by
  have hpieces : Piece.ofText ('$' :: s) = .reference head :: tail.map Piece.plain :=
    (Piece.Pieces.reference h hne (Piece.pieces_plain hd)).ofText_eq
  rw [substitute_eq, hpieces]
  cases hv : vars.value? head with
  | none =>
    have hx : (Piece.reference head).expand vars = .error head := by rw [Piece.expand, hv]
    rw [Traversal.mapM_cons_of_error hx]
    rfl
  | some value =>
    have hx : (Piece.reference head).expand vars = .ok value := by rw [Piece.expand, hv]
    rw [Traversal.mapM_cons_of_ok hx, mapM_expand_plain]
    simp [Except.map, ← List.flatMap_def]

theorem substitute_of_isReferenceChar {vars : Variables} {name : Text} (hne : name ≠ [])
    (hall : ∀ c ∈ name, isReferenceChar c = true) :
    vars.substitute ('$' :: name) =
      match vars.value? name with
      | some value => .ok value
      | none => .error name := by
  have hrun : Text.Run isReferenceChar name name [] := ⟨(List.append_nil _).symm, hall, by simp⟩
  rw [substitute_reference hrun hne List.not_mem_nil]
  cases vars.value? name <;> simp

/-! ## Files with a single definition -/

theorem not_isBlank_of_mem_emptyDefinition {name : Text} (h : IsName name) :
    ∀ c ∈ emptyDefinition name, ¬ Text.isBlank c := by
  intro c hc
  simp only [emptyDefinition, List.mem_cons, List.mem_append, List.not_mem_nil, or_false] at hc
  rcases hc with rfl | hc | rfl
  · decide
  · exact Assignment.not_isBlank_of_isNameChar ((isName_iff.1 h).2 c hc)
  · decide

theorem ofFile_emptyDefinition {name : Text} (h : IsName name) :
    ofFile (emptyDefinition name) = [(name, [])] := by
  have hblank := not_isBlank_of_mem_emptyDefinition h
  have hlines : Text.lines (emptyDefinition name) = [emptyDefinition name] := by
    have hnewline : ∀ line ∈ [emptyDefinition name], '\n' ∉ line := by
      intro line hline hn
      rw [List.mem_singleton.1 hline] at hn
      exact hblank '\n' hn (by decide)
    simpa [Text.lines] using List.splitOn_intercalate '\n' hnewline (List.cons_ne_nil _ _)
  have hread : Assignment.ofDefinition (emptyDefinition name) = .ok ⟨name, []⟩ :=
    (reads_emptyDefinition (isName_iff.1 h).1 (isName_iff.1 h).2).ofText_eq
  simp [ofFile, hlines, Text.trim_eq_self hblank, hread, Except.toOption]

/-! ## Agreement -/

/-- In every file, a reference to the name comes to the value of the variable if there is one. -/
def Expands (name : Text) : Prop :=
  ∀ content value, (ofFile content).value? name = some value →
    (ofFile content).substitute ('$' :: name) = .ok value

/-- In every file without such a variable, a reference to the name is refused with the whole name,
whatever variables there are for parts of it. -/
def Refuses (name : Text) : Prop :=
  ∀ content, (ofFile content).value? name = none →
    (ofFile content).substitute ('$' :: name) = .error name

theorem expands_of_isReferenceChar {name : Text} (hne : name ≠ [])
    (hall : ∀ c ∈ name, isReferenceChar c = true) : Expands name := by
  intro content value hv
  rw [substitute_of_isReferenceChar hne hall, hv]

theorem refuses_of_isReferenceChar {name : Text} (hne : name ≠ [])
    (hall : ∀ c ∈ name, isReferenceChar c = true) : Refuses name := by
  intro content hv
  rw [substitute_of_isReferenceChar hne hall, hv]

/-- Where nothing is defined for the part of a name that a reference takes in, the reference is no
reference or one that is refused for this part. -/
theorem substitute_of_undefined {vars : Variables} {name head tail : Text} (h : IsName name)
    (hrun : Text.Run isReferenceChar name head tail) (hnone : vars.value? head = none) :
    vars.substitute ('$' :: name) = if head = [] then .ok ('$' :: name) else .error head := by
  have hd : '$' ∉ name := dollar_not_mem_of_isName h
  split
  · next hnil =>
    rw [hnil] at hrun
    have heq : tail = name := by simpa using hrun.eq.symm
    rw [heq] at hrun
    exact substitute_bare hrun hd
  · next hne =>
    have htail : '$' ∉ tail := fun ht => hd (hrun.eq ▸ List.mem_append_right head ht)
    rw [substitute_reference hrun hne htail, hnone]

theorem isReferenceChar_of_expands {name : Text} (h : IsName name) (hexpands : Expands name) :
    ∀ c ∈ name, isReferenceChar c = true := by
  have hrun := Text.run_takeWhile isReferenceChar name
  by_cases hhead : name.takeWhile isReferenceChar = name
  · exact List.takeWhile_eq_self_iff.1 hhead
  · have hnone :
        (ofFile (emptyDefinition name)).value? (name.takeWhile isReferenceChar) = none := by
      simp [ofFile_emptyDefinition h, value?, List.lookup_cons, beq_false_of_ne hhead]
    have hvalue : (ofFile (emptyDefinition name)).value? name = some [] := by
      simp [ofFile_emptyDefinition h, value?]
    have hok := hexpands _ _ hvalue
    rw [substitute_of_undefined h hrun hnone] at hok
    split at hok <;> cases hok

theorem isReferenceChar_of_refuses {name : Text} (h : IsName name) (hrefuses : Refuses name) :
    ∀ c ∈ name, isReferenceChar c = true := by
  have hrun := Text.run_takeWhile isReferenceChar name
  have herror := hrefuses [] rfl
  rw [substitute_of_undefined h hrun rfl] at herror
  split at herror
  · cases herror
  · exact List.takeWhile_eq_self_iff.1 (Except.error.inj herror)

/-- Definitions and references agree on a name exactly if all its characters can stand in a
reference: with any other character in it there are a file that defines the name where a reference
does not come to its value, and a file without it where a reference is not refused for it. -/
theorem expands_and_refuses_iff {name : Text} (h : IsName name) :
    (Expands name ↔ ∀ c ∈ name, isReferenceChar c = true) ∧
      (Refuses name ↔ ∀ c ∈ name, isReferenceChar c = true) := by
  have hne : name ≠ [] := (isName_iff.1 h).1
  constructor
  · exact ⟨isReferenceChar_of_expands h, expands_of_isReferenceChar hne⟩
  · exact ⟨isReferenceChar_of_refuses h, refuses_of_isReferenceChar hne⟩

theorem expands_and_refuses_mod_accented :
    (IsName "mod".toList ∧ Expands "mod".toList) ∧
      IsName "modé".toList ∧ ¬ Refuses "modé".toList := by
  have hmod : IsName "mod".toList := isName_iff.2 ⟨by decide, List.all_eq_true.1 rfl⟩
  have haccented : IsName "modé".toList := isName_iff.2 ⟨by decide, List.all_eq_true.1 rfl⟩
  refine ⟨⟨hmod, (expands_and_refuses_iff hmod).1.2 (List.all_eq_true.1 rfl)⟩, haccented, ?_⟩
  intro hrefuses
  have hall := (expands_and_refuses_iff haccented).2.1 hrefuses
  exact absurd (hall 'é' (by decide)) (by decide)

/-- One letter with an accent: a reference to the first name is none, and a reference to the second
one expands a variable for the letters before the accent. -/
theorem substitute_accented_names :
    let vars := ofFile "$é = Enter\n$mod = Control\n$modé = Alt".toList
    (vars.value? "é".toList = some "Enter".toList ∧
      vars.substitute "$é".toList = .ok "$é".toList) ∧
    vars.value? "modé".toList = some "Alt".toList ∧
      vars.substitute "$modé".toList = .ok "Controlé".toList := by
  decide +kernel

end Variables

end Keymap

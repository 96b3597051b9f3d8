import Keymap.ConfigFile.Basic
import Keymap.Proofs.Text.Trim
import Mathlib

/-! # The form of a line

What an assignment says and where a line leaves the form of one, without the
order in which the text is read; and which names spell a category.
-/
namespace Keymap

namespace Assignment

/-- A name, an equals sign with gaps around it and the rest, or the place where this form ends. -/
inductive Reads (s : Text) : Except LineError Assignment → Prop
  | assignment {name u gap v gap' w} (hname : Text.Run isNameChar s name u) (hne : name ≠ [])
      (hgap : Text.Run isGap u gap ('=' :: v)) (hgap' : Text.Run isGap v gap' w) :
      Reads s (.ok ⟨name, Text.trimEnd w⟩)
  | expectedName {u} (hname : Text.Run isNameChar s [] u) : Reads s (.error (.expectedName s))
  | expectedSign {name u gap w} (hname : Text.Run isNameChar s name u) (hne : name ≠ [])
      (hgap : Text.Run isGap u gap w) (hw : ∀ c ∈ w.head?, c ≠ '=') :
      Reads s (.error (.expectedSign w))

theorem Reads.ofText_eq {s : Text} {r : Except LineError Assignment} (h : Reads s r) :
    ofText s = r := by
  cases h with
  | assignment hname hne hgap hgap' =>
    rw [ofText, scan, hname.takeWhile_eq, hname.dropWhile_eq, hgap.dropWhile_eq,
      if_neg (mt List.isEmpty_iff.1 hne), ← hgap'.dropWhile_eq]
    rfl
  | expectedName hname =>
    rw [ofText, scan, hname.takeWhile_eq]
    rfl
  | @expectedSign name u gap w hname hne hgap hw =>
    rw [ofText, scan, hname.takeWhile_eq, hname.dropWhile_eq, hgap.dropWhile_eq,
      if_neg (mt List.isEmpty_iff.1 hne)]
    split
    · exact absurd rfl (hw '=' rfl)
    · rfl

theorem exists_reads (s : Text) : ∃ r, Reads s r := by
  have hname := Text.run_takeWhile isNameChar s
  by_cases hne : s.takeWhile isNameChar = []
  · rw [hne] at hname
    exact ⟨_, .expectedName hname⟩
  have hgap := Text.run_takeWhile isGap (s.dropWhile isNameChar)
  match hrest : (s.dropWhile isNameChar).dropWhile isGap with
  | [] =>
    rw [hrest] at hgap
    exact ⟨_, .expectedSign hname hne hgap (by simp)⟩
  | c :: v =>
    rw [hrest] at hgap
    by_cases hc : c = '='
    · subst hc
      exact ⟨_, .assignment hname hne hgap (Text.run_takeWhile isGap v)⟩
    · exact ⟨_, .expectedSign hname hne hgap (by simpa using hc)⟩

theorem ofText_eq_iff {s : Text} {r : Except LineError Assignment} :
    ofText s = r ↔ Reads s r := by
  constructor
  · rintro rfl
    obtain ⟨r, hr⟩ := exists_reads s
    rw [hr.ofText_eq]
    exact hr
  · exact Reads.ofText_eq

theorem scanDefinition_eq_error {s : Text} (h : ∀ rest, s ≠ '$' :: rest) :
    scanDefinition s = .error (.expectedSign s) := by
  unfold scanDefinition
  split
  · next rest => exact absurd rfl (h rest)
  · rfl

/-- The definition of a variable is an assignment behind a dollar sign. -/
theorem ofDefinition_eq_iff {s : Text} {r : Except LineError Assignment} :
    ofDefinition s = r ↔ (∃ rest, s = '$' :: rest ∧ ofText rest = r) ∨
      (∀ rest, s ≠ '$' :: rest) ∧ r = .error (.expectedSign s) := by
  by_cases hdollar : ∃ rest, s = '$' :: rest
  · obtain ⟨rest, rfl⟩ := hdollar
    have hrest : ofDefinition ('$' :: rest) = ofText rest := rfl
    simp [hrest]
  · rw [not_exists] at hdollar
    have herror : ofDefinition s = .error (.expectedSign s) := by
      rw [ofDefinition, scanDefinition_eq_error hdollar]
      rfl
    simp [herror, hdollar, eq_comm]

theorem ofDefinition_eq_ok_iff {s : Text} {a : Assignment} :
    ofDefinition s = .ok a ↔ ∃ rest, s = '$' :: rest ∧ Reads rest (.ok a) := by
  simp [ofDefinition_eq_iff, ofText_eq_iff]

section Split

variable {s name gap rest : Text}

/-- The text is a name, a gap, an equals sign and the rest. -/
structure Split (s name gap rest : Text) : Prop where
  eq : s = name ++ (gap ++ '=' :: rest)
  name_ne_nil : name ≠ []
  all_name : ∀ c ∈ name, isNameChar c = true
  all_gap : ∀ c ∈ gap, isGap c = true

theorem isNameChar_equals : isNameChar '=' = false := by decide +kernel

theorem isNameChar_eq_false_of_isGap {c : Char} (h : isGap c = true) : isNameChar c = false := by
  rw [isGap, Bool.or_eq_true, beq_iff_eq, beq_iff_eq] at h
  rcases h with rfl | rfl <;> decide +kernel

/-- The name ends where a gap or the equals sign starts. -/
theorem Split.run_name (h : Split s name gap rest) :
    Text.Run isNameChar s name (gap ++ '=' :: rest) := by
  refine ⟨h.eq, h.all_name, ?_⟩
  cases gap with
  | nil => simp [isNameChar_equals]
  | cons c gap => simp [isNameChar_eq_false_of_isGap (h.all_gap c List.mem_cons_self)]

theorem Split.run_gap (h : Split s name gap rest) :
    Text.Run isGap (gap ++ '=' :: rest) gap ('=' :: rest) := by
  refine ⟨rfl, h.all_gap, ?_⟩
  simp [isGap]

end Split

def IsAssignment (s : Text) : Prop := ∃ name gap rest, Split s name gap rest

theorem exists_reads_ok_iff {s : Text} : (∃ a, Reads s (.ok a)) ↔ IsAssignment s := by
  constructor
  · rintro ⟨a, ha⟩
    cases ha with
    | @assignment name u gap v _ _ hname hne hgap _ =>
      exact ⟨name, gap, v, by rw [← hgap.eq, ← hname.eq], hne, hname.all, hgap.all⟩
  · rintro ⟨name, gap, rest, hsplit⟩
    exact ⟨_, .assignment hsplit.run_name hsplit.name_ne_nil hsplit.run_gap
      (Text.run_takeWhile isGap rest)⟩

theorem not_isBlank_of_isNameChar {c : Char} (h : isNameChar c = true) : ¬ Text.isBlank c := by
  intro hc
  rw [isNameChar, Text.isAlphanumeric_of_isBlank hc, Bool.false_or, Bool.or_eq_true, beq_iff_eq,
    beq_iff_eq] at h
  rcases h with rfl | rfl
  · exact absurd hc (by decide)
  · exact absurd hc (by decide)

theorem Reads.trim_name {s : Text} {a : Assignment} (h : Reads s (.ok a)) :
    Text.trim a.name = a.name := by
  cases h with
  | assignment hname _ _ _ =>
    exact Text.trim_eq_self fun c hc => not_isBlank_of_isNameChar (hname.all c hc)

end Assignment

namespace Category

/-- The character as far as names of categories go: A to Z are as a to z, and an underscore is as a
hyphen. -/
def foldChar (c : Char) : Char := if c = '_' then '-' else c.toLower

def Spelled (name : Text) (c : Category) : Prop := name.map foldChar = c.name.map foldChar

theorem toLower_eq_underscore_iff (c : Char) : c.toLower = '_' ↔ c = '_' := by
  constructor
  · intro h
    by_cases hc : c.isUpper = true
    · have hlower : c.toLower.isLower = true := by
        rw [Char.isLower_toLower_eq_isAlpha, Char.isAlpha, hc, Bool.true_or]
      rw [h] at hlower
      cases hlower
    · rw [Char.toLower_eq_of_not_isUpper hc] at h
      exact h
  · rintro rfl
    rfl

theorem ofName?_eq_some_iff {name : Text} (h : Text.trim name = name) {c : Category} :
    ofName? name = some c ↔ Spelled name c := by
  have hname : c.name.map foldChar = c.name := by cases c <;> decide
  have hfold : (Text.toLower name).map (fun x => if x = '_' then '-' else x) =
      name.map foldChar := by
    rw [Text.toLower, List.map_map]
    refine List.map_congr_left ?_
    intro x _
    rw [Function.comp_apply, foldChar]
    simp only [toLower_eq_underscore_iff]
  rw [ofName?, h, hfold, ofExactName?_eq_some_iff, Spelled, hname]

theorem ofName?_eq_none_iff {name : Text} (h : Text.trim name = name) :
    ofName? name = none ↔ ∀ c, ¬ Spelled name c := by
  rw [Option.eq_none_iff_forall_ne_some]
  exact forall_congr' fun c => not_congr (ofName?_eq_some_iff h)

theorem Spelled.unique {name : Text} {c d : Category} (hc : Spelled name c) (hd : Spelled name d) :
    c = d := by
  have h : c.name.map foldChar = d.name.map foldChar := hc.symm.trans hd
  revert h
  cases c <;> cases d <;> decide

end Category

end Keymap

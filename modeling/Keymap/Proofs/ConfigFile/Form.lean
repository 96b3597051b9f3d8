import Keymap.Proofs.ConfigFile.Line

/-! # The form of an assignment

An assignment is a name, a gap, an equals sign and the rest. There is one way at most to
see a text like this, so nothing depends on how far a name and a gap are read. Main
statement: reading accepts exactly the texts of this form, gives the name and the trimmed
rest, and fails on every other text at the place where the form ends.
-/
namespace Keymap.Assignment

variable {s name gap rest value : Text}

/-- The value is the rest without the gap in front of it and the white space behind it. -/
structure Trimmed (rest value : Text) : Prop where
  eq : ∃ before after, rest = before ++ (value ++ after) ∧ (∀ c ∈ before, isGap c = true) ∧
    ∀ c ∈ after, Text.isBlank c = true
  head : ∀ c ∈ value.head?, isGap c = false
  last : ∀ c ∈ value.getLast?, Text.isBlank c = false

/-! ## One way to split -/

theorem Split.unique {name' gap' rest' : Text} (h : Split s name gap rest)
    (h' : Split s name' gap' rest') : name' = name ∧ gap' = gap ∧ rest' = rest := by
  have hname : name' = name := by rw [← h.run_name.takeWhile_eq, h'.run_name.takeWhile_eq]
  have hafter : gap' ++ '=' :: rest' = gap ++ '=' :: rest := by
    rw [← h.run_name.dropWhile_eq, h'.run_name.dropWhile_eq]
  have hgap : gap' = gap := by
    rw [← h.run_gap.takeWhile_eq, ← hafter, h'.run_gap.takeWhile_eq]
  refine ⟨hname, hgap, ?_⟩
  simpa [hgap] using hafter

/-- No equals sign stands before the one that separates. -/
theorem Split.equals_not_mem (h : Split s name gap rest) : '=' ∉ name ++ gap := by
  intro hmem
  rcases List.mem_append.1 hmem with hname | hgap
  · have hequals := h.all_name '=' hname
    simp [isNameChar_equals] at hequals
  · exact absurd (h.all_gap '=' hgap) (by decide)

/-! ## The value of the rest -/

theorem trimEnd_append {after : Text} (hlast : ∀ c ∈ value.getLast?, Text.isBlank c = false)
    (hafter : ∀ c ∈ after, Text.isBlank c = true) : Text.trimEnd (value ++ after) = value := by
  have hrun : Text.Run Text.isBlank (value ++ after).reverse after.reverse value.reverse := by
    constructor
    · exact List.reverse_append
    · simpa using hafter
    · simpa using hlast
  rw [Text.trimEnd, hrun.dropWhile_eq, List.reverse_reverse]

theorem Trimmed.trimEnd_eq (h : Trimmed rest value) :
    Text.trimEnd (rest.dropWhile isGap) = value := by
  obtain ⟨before, after, rfl, hbefore, hafter⟩ := h.eq
  rw [List.dropWhile_append_of_pos hbefore]
  cases value with
  | nil =>
    rw [List.nil_append, Text.trimEnd_eq_rdropWhile, List.rdropWhile_eq_nil_iff]
    intro c hc
    exact hafter c ((List.dropWhile_sublist isGap).subset hc)
  | cons c value =>
    have hc : ¬ isGap c = true := by simpa using h.head
    rw [List.cons_append, List.dropWhile_cons_of_neg hc, ← List.cons_append,
      trimEnd_append h.last hafter]

theorem trimmed_trimEnd (rest : Text) : Trimmed rest (Text.trimEnd (rest.dropWhile isGap)) := by
  rw [Text.trimEnd_eq_rdropWhile]
  constructor
  · refine ⟨rest.takeWhile isGap, (rest.dropWhile isGap).rtakeWhile Text.isBlank, ?_, ?_, ?_⟩
    · rw [List.rdropWhile_append_rtakeWhile, List.takeWhile_append_dropWhile]
    · exact fun c hc => List.mem_takeWhile_imp hc
    · intro c hc
      rw [List.rtakeWhile, List.mem_reverse] at hc
      exact List.mem_takeWhile_imp hc
  · intro c hc
    have hhead := (Text.run_takeWhile isGap rest).ends
    obtain ⟨after, hafter⟩ := List.rdropWhile_prefix Text.isBlank (l := rest.dropWhile isGap)
    apply hhead c
    rw [← hafter]
    exact List.mem_head?_append_of_mem_head? hc
  · intro c hc
    have hne : (rest.dropWhile isGap).rdropWhile Text.isBlank ≠ [] := by
      rintro hnil
      simp [hnil] at hc
    rw [List.getLast?_eq_some_getLast hne] at hc
    simpa [← Option.some.inj hc] using List.rdropWhile_last_not Text.isBlank _ hne

theorem trimmed_iff : Trimmed rest value ↔ Text.trimEnd (rest.dropWhile isGap) = value := by
  constructor
  · exact Trimmed.trimEnd_eq
  · rintro rfl
    exact trimmed_trimEnd rest

/-! ## Reading -/

theorem Split.ofText_eq (h : Split s name gap rest) (hvalue : Trimmed rest value) :
    ofText s = .ok ⟨name, value⟩ := by
  rw [← hvalue.trimEnd_eq]
  exact (Reads.assignment h.run_name h.name_ne_nil h.run_gap
    (Text.run_takeWhile isGap rest)).ofText_eq

theorem Reads.exists_split {a : Assignment} (h : Reads s (.ok a)) :
    ∃ gap rest, Split s a.name gap rest ∧ Trimmed rest a.value := by
  cases h with
  | @assignment name u gap v gap' w hname hne hgap hgap' =>
    refine ⟨gap, v, ⟨?_, hne, hname.all, hgap.all⟩, ?_⟩
    · rw [← hgap.eq]
      exact hname.eq
    · rw [trimmed_iff, hgap'.dropWhile_eq]

theorem ofText_eq_ok_iff {a : Assignment} :
    ofText s = .ok a ↔ ∃ gap rest, Split s a.name gap rest ∧ Trimmed rest a.value := by
  constructor
  · intro h
    exact (ofText_eq_iff.1 h).exists_split
  · rintro ⟨gap, rest, hsplit, hvalue⟩
    exact hsplit.ofText_eq hvalue

theorem exists_ofText_eq_ok_iff :
    (∃ a, ofText s = .ok a) ↔ ∃ name gap rest, Split s name gap rest := by
  simp only [ofText_eq_iff]
  exact exists_reads_ok_iff

/-- An assignment takes up the whole text. -/
theorem scan_eq (s : Text) : scan s = (ofText s).map fun a => ([], a) := by
  rw [ofText, scan]
  split
  · rfl
  · split <;> rfl

theorem scanDefinition_eq (s : Text) :
    scanDefinition s = (ofDefinition s).map fun a => ([], a) := by
  by_cases hdollar : ∃ rest, s = '$' :: rest
  · obtain ⟨rest, rfl⟩ := hdollar
    exact scan_eq rest
  · rw [not_exists] at hdollar
    rw [ofDefinition, scanDefinition_eq_error hdollar]
    rfl

/-! ## Writing -/

structure IsWritable (a : Assignment) : Prop where
  name_ne_nil : a.name ≠ []
  all_name : ∀ c ∈ a.name, isNameChar c = true
  head : ∀ c ∈ a.value.head?, isGap c = false
  last : ∀ c ∈ a.value.getLast?, Text.isBlank c = false

/-- The text shows the assignment, with gaps on the two sides of the equals sign and white space at
the end. -/
structure Shows (s : Text) (a : Assignment) (before after trailing : Text) : Prop where
  eq : s = a.name ++ (before ++ '=' :: (after ++ (a.value ++ trailing)))
  all_before : ∀ c ∈ before, isGap c = true
  all_after : ∀ c ∈ after, isGap c = true
  all_trailing : ∀ c ∈ trailing, Text.isBlank c = true

theorem Shows.ofText_eq {a : Assignment} {before after trailing : Text}
    (h : Shows s a before after trailing) (ha : a.IsWritable) : ofText s = .ok a := by
  have hsplit : Split s a.name before (after ++ (a.value ++ trailing)) :=
    ⟨h.eq, ha.name_ne_nil, ha.all_name, h.all_before⟩
  have hvalue : Trimmed (after ++ (a.value ++ trailing)) a.value :=
    ⟨⟨after, trailing, rfl, h.all_after, h.all_trailing⟩, ha.head, ha.last⟩
  exact hsplit.ofText_eq hvalue

/-- Reading an assignment decides its form. A text is accepted exactly if it is a name, a gap, an
equals sign and the rest, which it is in one way only, with the first equals sign; the result is the
name and the trimmed rest. Another text fails at once if it does not start with a name, and else
behind its longest name and the longest gap after that. The definition of a variable is the same
behind a dollar sign and fails at once without one. Of what is accepted nothing is left over. So
what shows an assignment, with whatever padding, reads back. -/
theorem ofText_and_ofDefinition_eq_iff :
    (∀ s, (∃ a, ofText s = .ok a) ↔ ∃ name gap rest, Split s name gap rest) ∧
      (∀ s name gap rest, Split s name gap rest → '=' ∉ name ++ gap ∧
        ∀ name' gap' rest', Split s name' gap' rest' →
          name' = name ∧ gap' = gap ∧ rest' = rest) ∧
      (∀ s a, ofText s = .ok a ↔ ∃ gap rest, Split s a.name gap rest ∧ Trimmed rest a.value) ∧
      (∀ s cause, ofText s = .error cause ↔ Reads s (.error cause)) ∧
      (∀ s r, ofDefinition s = r ↔ (∃ rest, s = '$' :: rest ∧ ofText rest = r) ∨
        (∀ rest, s ≠ '$' :: rest) ∧ r = .error (.expectedSign s)) ∧
      (∀ s, scan s = (ofText s).map fun a => ([], a)) ∧
      (∀ s, scanDefinition s = (ofDefinition s).map fun a => ([], a)) ∧
      ∀ a s before after trailing, IsWritable a → Shows s a before after trailing →
        ofText s = .ok a ∧ ofDefinition ('$' :: s) = .ok a := by
  refine ⟨fun s => exists_ofText_eq_ok_iff, ?_, fun s a => ofText_eq_ok_iff,
    fun s cause => ofText_eq_iff, fun s r => ofDefinition_eq_iff, scan_eq, scanDefinition_eq, ?_⟩
  · intro s name gap rest h
    exact ⟨h.equals_not_mem, fun _ _ _ h' => h.unique h'⟩
  · intro a s before after trailing ha h
    have hread := h.ofText_eq ha
    exact ⟨hread, hread⟩

/-- The value keeps its own equals signs and all white space but that at its two ends, where a wide
space in front stays too. -/
theorem ofText_and_ofDefinition_wideSpace :
    let a : Assignment := ⟨"größe-2".toList, "\u2003a = #b".toList⟩
    let s := "größe-2\t = \u2003a = #b \u3000".toList
    IsWritable a ∧ Shows s a ['\t', ' '] [' '] [' ', '\u3000'] ∧ ofText s = .ok a ∧
      ofDefinition ('$' :: s) = .ok a ∧ scan s = .ok ([], a) ∧
      ofText "größe 2 = b".toList = .error (.expectedSign "2 = b".toList) ∧
      ofText "=".toList = .error (.expectedName "=".toList) := by
  intro a s
  have ha : IsWritable a := by
    refine ⟨by decide, List.all_eq_true.1 (by decide +kernel), ?_, ?_⟩
    · rintro c ⟨⟩
      rfl
    · rintro c ⟨⟩
      rfl
  have hs : Shows s a ['\t', ' '] [' '] [' ', '\u3000'] :=
    ⟨rfl, List.all_eq_true.1 rfl, List.all_eq_true.1 rfl, List.all_eq_true.1 rfl⟩
  obtain ⟨-, -, -, -, -, hscan, -, hread⟩ := ofText_and_ofDefinition_eq_iff
  obtain ⟨htext, hdefinition⟩ := hread a s _ _ _ ha hs
  refine ⟨ha, hs, htext, hdefinition, ?_, ?_, ?_⟩
  · rw [hscan, htext]
    rfl
  · decide +kernel
  · decide +kernel

end Keymap.Assignment

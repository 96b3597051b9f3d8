import Keymap.Proofs.ConfigFile.LineOrder

/-! # The layout of a configuration file

A file says what its lines say that are neither blank nor comments, without the white
space at their ends. So its layout can be changed: comments and blank lines inserted, lines
padded, line endings replaced. Main statement: after any number of such changes a file
gives the same variables and the same result, and an error keeps all but the number of its
line, which grows by the lines that have been inserted above it.
-/
namespace Keymap

namespace Text

/-! ## Carriage returns -/

def withCarriageReturns : Text → Text
  | [] => []
  | '\n' :: s => '\r' :: '\n' :: withCarriageReturns s
  | '\r' :: '\n' :: s => '\r' :: '\n' :: withCarriageReturns s
  | c :: s => c :: withCarriageReturns s

def returned : List Text → List Text
  | [] => []
  | [last] => [last]
  | piece :: next :: pieces => (chomp piece ++ ['\r']) :: returned (next :: pieces)

theorem lines_newline_cons (s : Text) : lines ('\n' :: s) = [] :: lines s := by
  simp [lines, List.splitOn_cons_eq_if_modifyHead]

theorem lines_cons {c : Char} (h : c ≠ '\n') (s : Text) :
    lines (c :: s) = (lines s).modifyHead (c :: ·) := by
  simp [lines, List.splitOn_cons_eq_if_modifyHead, h]

theorem exists_lines_eq_cons (s : Text) : ∃ piece pieces, lines s = piece :: pieces :=
  List.exists_cons_of_ne_nil (List.splitOn_ne_nil '\n' s)

theorem lines_append_newline (s t : Text) : lines (s ++ '\n' :: t) = lines s ++ lines t := by
  induction s with
  | nil => exact lines_newline_cons t
  | cons c s ih =>
    by_cases hc : c = '\n'
    · rw [hc, List.cons_append, lines_newline_cons, lines_newline_cons, ih, List.cons_append]
    · obtain ⟨piece, pieces, hs⟩ := exists_lines_eq_cons s
      rw [List.cons_append, lines_cons hc, lines_cons hc, ih, hs]
      rfl

/-- Behind a newline the lines start anew. -/
theorem rows_append_newline (s t : Text) :
    rows (s ++ '\n' :: t) = (lines s).map chomp ++ rows t := by
  have hlines : lines t ≠ [] := List.splitOn_ne_nil '\n' t
  rw [rows, lines_append_newline, rowsOf_append _ hlines, rows]

theorem chomp_cons {c : Char} {piece : Text} (h : piece = [] → c ≠ '\r') :
    chomp (c :: piece) = c :: chomp piece := by
  cases piece with
  | nil => simp [chomp, h rfl]
  | cons d piece =>
    simp only [chomp, List.getLast?_cons_cons, List.dropLast_cons_cons]
    split <;> rfl

/-- A piece that is empty, but not the last one, stands in front of a newline. -/
theorem exists_newline_cons_of_lines {s next : Text} {pieces : List Text}
    (h : lines s = [] :: next :: pieces) : ∃ rest, s = '\n' :: rest := by
  cases s with
  | nil => simp [lines] at h
  | cons c s =>
    by_cases hc : c = '\n'
    · exact ⟨s, by rw [hc]⟩
    · obtain ⟨piece, others, hs⟩ := exists_lines_eq_cons s
      simp [lines_cons hc, hs] at h

theorem lines_withCarriageReturns (s : Text) :
    lines (withCarriageReturns s) = returned (lines s) := by
  fun_induction withCarriageReturns s with
  | case1 => rfl
  | case2 s ih =>
    obtain ⟨piece, pieces, hs⟩ := exists_lines_eq_cons s
    rw [lines_newline_cons, lines_cons (by decide), lines_newline_cons, ih, hs]
    rfl
  | case3 s ih =>
    obtain ⟨piece, pieces, hs⟩ := exists_lines_eq_cons s
    rw [lines_cons (by decide), lines_newline_cons, lines_cons (by decide), lines_newline_cons, ih,
      hs]
    rfl
  | case4 c s hnewline hreturn ih =>
    rw [lines_cons hnewline, lines_cons hnewline, ih]
    match hs : lines s with
    | [] => rfl
    | [last] => rfl
    | piece :: next :: pieces =>
      have hchomp : chomp (c :: piece) = c :: chomp piece := by
        apply chomp_cons
        rintro rfl rfl
        obtain ⟨rest, hrest⟩ := exists_newline_cons_of_lines hs
        exact hreturn rest rfl hrest
      simp [returned, hchomp]

@[simp] theorem chomp_returned (piece : Text) : chomp (chomp piece ++ ['\r']) = chomp piece := by
  rw [chomp, if_pos List.getLast?_concat, List.dropLast_concat]

/-- The lines of a text do not depend on whether newlines come with carriage returns. -/
@[simp] theorem rows_withCarriageReturns (s : Text) : rows (withCarriageReturns s) = rows s := by
  rw [rows, rows, lines_withCarriageReturns]
  fun_induction returned (lines s) with
  | case1 => rfl
  | case2 => rfl
  | case3 piece next pieces ih =>
    have hnext : ∃ piece' pieces', returned (next :: pieces) = piece' :: pieces' := by
      cases pieces with
      | nil => exact ⟨_, _, rfl⟩
      | cons => exact ⟨_, _, rfl⟩
    obtain ⟨piece', pieces', hreturned⟩ := hnext
    rw [hreturned] at ih ⊢
    rw [rowsOf, rowsOf, chomp_returned, ih]

/-! ## Padding -/

theorem trim_append_of_isBlank {s back : Text} (h : ∀ c ∈ back, isBlank c) :
    trim (s ++ back) = trim s := by
  induction back using List.reverseRecOn with
  | nil => simp
  | append_singleton back c ih =>
    rw [← List.append_assoc, trim_concat_of_isBlank (h c (by simp)), ih]
    intro d hd
    exact h d (List.mem_append_left [c] hd)

theorem trim_padded {front line back : Text} (hfront : ∀ c ∈ front, isBlank c)
    (hback : ∀ c ∈ back, isBlank c) : trim (front ++ line ++ back) = trim line := by
  rw [trim_append_of_isBlank hback, trim, trimStart, List.dropWhile_append_of_pos hfront]
  rfl

end Text

def ConfigError.renumber (f : ℕ → ℕ) : ConfigError → ConfigError
  | .malformedLine n form cause => .malformedLine (f n) form cause
  | .unknownCategory n name => .unknownCategory (f n) name
  | .undefinedVariable n name => .undefinedVariable (f n) name
  | e => e

namespace ConfigFile

open Variables (ofLines)
open Text (rows)

/-! ## The lines that say something -/

def isTelling : Text → Bool
  | [] => false
  | '#' :: _ => false
  | _ => true

theorem isTelling_trim_eq_false_iff {line : Text} :
    isTelling (Text.trim line) = false ↔ Silent line := by
  rw [Silent, ← Text.trim_eq_nil_iff]
  unfold isTelling
  split <;> simp_all

/-- The numbered lines that are neither blank nor comments, trimmed. -/
def heard (numbered : List (Text × ℕ)) : List (Text × ℕ) :=
  (numbered.map fun x => (Text.trim x.1, x.2)).filter fun x => isTelling x.1

theorem heard_cons (line : Text) (n : ℕ) (numbered : List (Text × ℕ)) :
    heard ((line, n) :: numbered) =
      if isTelling (Text.trim line) then (Text.trim line, n) :: heard numbered
      else heard numbered := by
  simp [heard, List.filter_cons]

theorem heard_append (numbered others : List (Text × ℕ)) :
    heard (numbered ++ others) = heard numbered ++ heard others := by
  simp [heard]

def renumbered (f : ℕ → ℕ) (numbered : List (Text × ℕ)) : List (Text × ℕ) :=
  numbered.map fun x => (x.1, f x.2)

theorem renumbered_cons (f : ℕ → ℕ) (line : Text) (n : ℕ) (numbered : List (Text × ℕ)) :
    renumbered f ((line, n) :: numbered) = (line, f n) :: renumbered f numbered := rfl

theorem renumbered_append (f : ℕ → ℕ) (numbered others : List (Text × ℕ)) :
    renumbered f (numbered ++ others) = renumbered f numbered ++ renumbered f others := by
  simp [renumbered]

theorem heard_renumbered (f : ℕ → ℕ) (numbered : List (Text × ℕ)) :
    heard (renumbered f numbered) = renumbered f (heard numbered) := by
  simp [heard, renumbered, List.filter_map, Function.comp_def]

@[simp] theorem map_fst_renumbered (f : ℕ → ℕ) (numbered : List (Text × ℕ)) :
    (renumbered f numbered).map Prod.fst = numbered.map Prod.fst := by
  simp [renumbered]

theorem renumbered_zipIdx {f : ℕ → ℕ} {ls : List Text} {k d : ℕ}
    (h : ∀ n, k ≤ n → n < k + ls.length → f n = n + d) :
    renumbered f (ls.zipIdx k) = ls.zipIdx (k + d) := by
  rw [Nat.add_comm, ← List.map_snd_add_zipIdx_eq_zipIdx, renumbered]
  apply List.map_congr_left
  rintro ⟨line, n⟩ hx
  obtain ⟨hfrom, hto, -⟩ := List.mem_zipIdx hx
  simp [h n hfrom hto]

def heardIn (s : Text) : List (Text × ℕ) := heard ((rows s).zipIdx 1)

theorem heard_rows (s : Text) (k : ℕ) :
    heard ((rows s).zipIdx k) = heard ((Text.lines s).zipIdx k) := by
  rw [rows]
  fun_induction Text.rowsOf (Text.lines s) generalizing k with
  | case1 => rfl
  | case2 => rfl
  | case3 => rfl
  | case4 piece next pieces ih =>
    rw [List.zipIdx_cons, List.zipIdx_cons, heard_cons, heard_cons, ih, Text.trim_chomp]

/-! ## Reading them -/

/-- What a line comes to depends on its number only in the error. -/
theorem lineEntry_renumber (vars : Variables) (f : ℕ → ℕ) (n : ℕ) (line : Text) :
    lineEntry vars (f n) line = (lineEntry vars n line).mapError (ConfigError.renumber f) := by
  unfold lineEntry
  dsimp only
  split
  · rfl
  · rfl
  · split <;> rfl
  · split
    · rfl
    · split
      · rfl
      · split <;> rfl

def entriesOf (vars : Variables) (numbered : List (Text × ℕ)) :
    Except ConfigError (List (Category × Text)) :=
  (numbered.mapM fun x => lineEntry vars x.2 x.1).map (List.filterMap id)

theorem entriesOf_cons_of_error {vars : Variables} {line : Text} {n : ℕ} {e : ConfigError}
    (h : lineEntry vars n line = .error e) (numbered : List (Text × ℕ)) :
    entriesOf vars ((line, n) :: numbered) = .error e := by
  rw [entriesOf, Traversal.mapM_cons_of_error (f := fun x : Text × ℕ => lineEntry vars x.2 x.1) h]
  rfl

theorem entriesOf_cons_of_ok {vars : Variables} {line : Text} {n : ℕ}
    {added? : Option (Category × Text)} (h : lineEntry vars n line = .ok added?)
    (numbered : List (Text × ℕ)) :
    entriesOf vars ((line, n) :: numbered) =
      (entriesOf vars numbered).map (added?.toList ++ ·) := by
  rw [entriesOf, Traversal.mapM_cons_of_ok (f := fun x : Text × ℕ => lineEntry vars x.2 x.1) h,
    entriesOf]
  cases added? <;> cases numbered.mapM fun x => lineEntry vars x.2 x.1 <;> rfl

theorem entriesOf_heard (vars : Variables) (numbered : List (Text × ℕ)) :
    entriesOf vars (heard numbered) = entriesOf vars numbered := by
  induction numbered with
  | nil => rfl
  | cons x numbered ih =>
    obtain ⟨line, n⟩ := x
    rw [heard_cons]
    split
    · cases h : lineEntry vars n line with
      | error e =>
        rw [entriesOf_cons_of_error h, entriesOf_cons_of_error (by rw [lineEntry_trim, h])]
      | ok added? =>
        rw [entriesOf_cons_of_ok h, entriesOf_cons_of_ok (by rw [lineEntry_trim, h]), ih]
    · next hsilent =>
      rw [Bool.not_eq_true, isTelling_trim_eq_false_iff] at hsilent
      rw [entriesOf_cons_of_ok hsilent.lineEntry_eq, ih]
      cases entriesOf vars numbered <;> rfl

theorem entriesOf_renumbered (vars : Variables) (f : ℕ → ℕ) (numbered : List (Text × ℕ)) :
    entriesOf vars (renumbered f numbered) =
      (entriesOf vars numbered).mapError (ConfigError.renumber f) := by
  induction numbered with
  | nil => rfl
  | cons x numbered ih =>
    obtain ⟨line, n⟩ := x
    have hline := lineEntry_renumber vars f n line
    rw [renumbered_cons]
    cases h : lineEntry vars n line with
    | error e =>
      rw [h] at hline
      rw [entriesOf_cons_of_error h, entriesOf_cons_of_error hline]
      rfl
    | ok added? =>
      rw [h] at hline
      rw [entriesOf_cons_of_ok h, entriesOf_cons_of_ok hline, ih]
      cases entriesOf vars numbered <;> rfl

theorem ofLines_heard (numbered : List (Text × ℕ)) :
    ofLines ((heard numbered).map Prod.fst) = ofLines (numbered.map Prod.fst) := by
  have hfst : (heard numbered).map Prod.fst =
      ((numbered.map Prod.fst).map Text.trim).filter isTelling := by
    simp [heard, List.filter_map, Function.comp_def]
  rw [hfst]
  apply ofLines_filter_trim
  intro line hline
  exact isTelling_trim_eq_false_iff.1 hline

/-- Variables and entries of a file are matters of the lines that say something. -/
theorem ofFile_eq (s : Text) : Variables.ofFile s = ofLines ((heardIn s).map Prod.fst) := by
  rw [heardIn, heard_rows, ofLines_heard, List.zipIdx_map_fst, Variables.ofFile_eq_ofLines]

theorem parse_eq (s : Text) :
    parse s = (entriesOf (Variables.ofFile s) (heardIn s)).map Config.ofEntries := by
  rw [heardIn, heard_rows, entriesOf_heard, parse, entries, Traversal.bind_pure]
  rfl

/-! ## Changes of layout -/

/-- One change of layout from one text to another, and how many lines it puts in front of the line
of each number. -/
inductive LayoutChange (s t : Text) : (ℕ → ℕ) → Prop
  /-- One more line, which is blank or a comment. -/
  | insertion {before after : List Text} {line : Text} (hline : Silent line)
    (hs : rows s = before ++ after) (ht : rows t = before ++ line :: after) :
    LayoutChange s t fun n => if n ≤ before.length then 0 else 1
  /-- White space at the ends of a line. -/
  | padding {before after : List Text} {front line back : Text}
    (hfront : ∀ c ∈ front, Text.isBlank c) (hback : ∀ c ∈ back, Text.isBlank c)
    (hs : rows s = before ++ line :: after)
    (ht : rows t = before ++ (front ++ line ++ back) :: after) : LayoutChange s t fun _ => 0
  /-- A carriage return at the end of every line that ends. -/
  | lineEndings (ht : t = Text.withCarriageReturns s) : LayoutChange s t fun _ => 0

/-- A silent line is inserted by putting it and a newline behind a newline. -/
theorem layoutChange_newline {above line below : Text} (hline : Silent line)
    (hnewline : '\n' ∉ line) :
    LayoutChange (above ++ '\n' :: below) (above ++ '\n' :: (line ++ '\n' :: below))
      fun n => if n ≤ (Text.lines above).length then 0 else 1 := by
  have hjoin : (List.intercalate ['\n'] [line]).splitOn '\n' = [line] :=
    List.splitOn_intercalate '\n' (by simpa using hnewline) (List.cons_ne_nil line [])
  have hlines : Text.lines line = [line] := by
    rw [Text.lines]
    simpa using hjoin
  have hchomp : Silent (Text.chomp line) := by
    rwa [← isTelling_trim_eq_false_iff, Text.trim_chomp, isTelling_trim_eq_false_iff]
  have hrows : rows (above ++ '\n' :: (line ++ '\n' :: below)) =
      (Text.lines above).map Text.chomp ++ Text.chomp line :: rows below := by
    rw [Text.rows_append_newline, Text.rows_append_newline, hlines]
    rfl
  simpa using LayoutChange.insertion hchomp (Text.rows_append_newline above below) hrows

inductive Relaid (s : Text) : Text → (ℕ → ℕ) → Prop
  | refl : Relaid s s fun _ => 0
  | step {t u : Text} {added more : ℕ → ℕ} (h : Relaid s t added) (change : LayoutChange t u more) :
    Relaid s u fun n => added n + more (n + added n)

theorem heard_zipIdx_insert {before after : List Text} {line : Text} (hline : Silent line) :
    heard ((before ++ line :: after).zipIdx 1) =
      renumbered (fun n => n + if n ≤ before.length then 0 else 1)
        (heard ((before ++ after).zipIdx 1)) := by
  have hbefore : renumbered (fun n => n + if n ≤ before.length then 0 else 1) (before.zipIdx 1) =
      before.zipIdx (1 + 0) := by
    apply renumbered_zipIdx
    intro n _ hn
    rw [if_pos (by omega)]
  have hafter : renumbered (fun n => n + if n ≤ before.length then 0 else 1)
      (after.zipIdx (1 + before.length)) = after.zipIdx (1 + before.length + 1) := by
    apply renumbered_zipIdx
    intro n hn _
    rw [if_neg (by omega)]
  rw [← heard_renumbered, List.zipIdx_append, List.zipIdx_append, List.zipIdx_cons,
    renumbered_append, hbefore, hafter, heard_append, heard_append, heard_cons,
    isTelling_trim_eq_false_iff.2 hline, if_neg Bool.false_ne_true]

/-- What a change of layout leaves of the lines that say something: all but their numbers. -/
theorem heardIn_of_layoutChange {s t : Text} {added : ℕ → ℕ} (h : LayoutChange s t added) :
    heardIn t = renumbered (fun n => n + added n) (heardIn s) := by
  cases h with
  | insertion hline hs ht => rw [heardIn, heardIn, hs, ht, heard_zipIdx_insert hline]
  | padding hfront hback hs ht =>
    simp only [heardIn, hs, ht, List.zipIdx_append, List.zipIdx_cons, heard_append, heard_cons,
      Text.trim_padded hfront hback]
    simp [renumbered]
  | lineEndings ht => simp [heardIn, ht, renumbered]

theorem heardIn_of_relaid {s t : Text} {added : ℕ → ℕ} (h : Relaid s t added) :
    heardIn t = renumbered (fun n => n + added n) (heardIn s) := by
  induction h with
  | refl => simp [renumbered]
  | step _ change ih =>
    rw [heardIn_of_layoutChange change, ih]
    simp [renumbered, Nat.add_assoc]

/-- Layout matters for nothing but the numbers of lines in errors. -/
theorem parse_of_relaid {s t : Text} {added : ℕ → ℕ} (h : Relaid s t added) :
    parse t = (parse s).mapError (ConfigError.renumber fun n => n + added n) ∧
      Variables.ofFile t = Variables.ofFile s := by
  have hheard := heardIn_of_relaid h
  have hvars : Variables.ofFile t = Variables.ofFile s := by
    rw [ofFile_eq, ofFile_eq, hheard, map_fst_renumbered]
  refine ⟨?_, hvars⟩
  rw [parse_eq, parse_eq, hvars, hheard, entriesOf_renumbered]
  cases entriesOf (Variables.ofFile s) (heardIn s) <;> rfl

theorem parse_of_relaid_comment : ∃ added,
    Relaid "$mod = Alt\nsubmit-input = $mode+F5".toList
      "$mod = Alt\r\n# keys\r\n\t submit-input = $mode+F5 ".toList added ∧
    parse "$mod = Alt\r\n# keys\r\n\t submit-input = $mode+F5 ".toList =
      .error (.undefinedVariable 3 "mode".toList) := by
  have comment : LayoutChange "$mod = Alt\nsubmit-input = $mode+F5".toList
      "$mod = Alt\n# keys\nsubmit-input = $mode+F5".toList _ :=
    @layoutChange_newline "$mod = Alt".toList "# keys".toList "submit-input = $mode+F5".toList
      (.inr ⟨" keys".toList, by rfl⟩) (by decide)
  have spaces : LayoutChange "$mod = Alt\n# keys\nsubmit-input = $mode+F5".toList
      "$mod = Alt\n# keys\n\t submit-input = $mode+F5 ".toList _ :=
    @LayoutChange.padding _ _ ["$mod = Alt".toList, "# keys".toList] [] "\t ".toList
      "submit-input = $mode+F5".toList " ".toList (List.all_eq_true.1 rfl)
      (List.all_eq_true.1 rfl) (by rfl) (by rfl)
  have returns : LayoutChange "$mod = Alt\n# keys\n\t submit-input = $mode+F5 ".toList
      "$mod = Alt\r\n# keys\r\n\t submit-input = $mode+F5 ".toList _ := .lineEndings (by rfl)
  have h := Relaid.refl.step comment |>.step spaces |>.step returns
  exact ⟨_, h, (parse_of_relaid h).1.trans (by rfl)⟩

end ConfigFile
end Keymap

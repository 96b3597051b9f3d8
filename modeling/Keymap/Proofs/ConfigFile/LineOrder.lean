import Keymap.Proofs.ConfigFile.TwoPass

/-! # The order of the lines of a configuration file

A value depends on the definitions of the variables it refers to, and the patterns
of a category depend on the lines that assign to it. So the lines can be put in
another order as long as the definitions of each variable and the assignments to
each category keep theirs. Main statement: files of which the lines are reordered
in this way give the same configuration, or both give none.
-/
namespace Keymap

namespace Text

def chomp (piece : Text) : Text :=
  if piece.getLast? = some '\r' then piece.dropLast else piece

@[simp] theorem trim_chomp (piece : Text) : trim (chomp piece) = trim piece := by
  rw [chomp]
  split
  · rename_i h
    obtain ⟨before, rfl⟩ := List.getLast?_eq_some_iff.1 h
    rw [List.dropLast_concat, trim_concat_of_isBlank (by decide)]
  · rfl

def rowsOf : List Text → List Text
  | [] => []
  | [last] => if last = [] then [] else [last]
  | piece :: next :: pieces => chomp piece :: rowsOf (next :: pieces)

/-- The lines of a text: each ends with a newline or with a carriage return and a newline, the last
one also with the text. -/
def rows (s : Text) : List Text := rowsOf (lines s)

theorem rowsOf_append (pieces : List Text) {others : List Text} (h : others ≠ []) :
    rowsOf (pieces ++ others) = pieces.map chomp ++ rowsOf others := by
  induction pieces with
  | nil => rfl
  | cons piece pieces ih =>
    have hrest : pieces ++ others ≠ [] := List.append_ne_nil_of_right_ne_nil pieces h
    obtain ⟨next, rest, hrest⟩ := List.exists_cons_of_ne_nil hrest
    rw [List.map_cons, List.cons_append, List.cons_append, ← ih, hrest, rowsOf]

/-- Where every line is ended, the lines are what stands in front of the newlines, apart from
carriage returns. -/
theorem rows_join_newline {pieces : List Text} (h : ∀ piece ∈ pieces, '\n' ∉ piece) :
    rows (join ['\n'] (pieces ++ [[]])) = pieces.map chomp := by
  have hpieces : ∀ piece ∈ pieces ++ [[]], '\n' ∉ piece := by
    rw [List.forall_mem_append, List.forall_mem_singleton]
    exact ⟨h, List.not_mem_nil⟩
  rw [rows, lines, join, List.splitOn_intercalate '\n' hpieces (by simp),
    rowsOf_append _ (List.cons_ne_nil [] [])]
  exact List.append_nil _

example : rows "a\r\nb\n\n c\n".toList = ["a".toList, "b".toList, [], " c".toList] := by decide

/-- What the lines say: those that are not blank, without the white space at their ends. -/
def told (ls : List Text) : List Text := (ls.map trim).filter (· ≠ [])

theorem told_cons (l : Text) (ls : List Text) : told (l :: ls) = told [l] ++ told ls := by
  rw [told, told, told, ← List.filter_append, ← List.map_append]
  rfl

/-- A carriage return or a last empty piece more makes no difference to what the lines say. -/
theorem told_rows (s : Text) : told (rows s) = told (lines s) := by
  rw [rows]
  fun_induction rowsOf (lines s) with
  | case1 => rfl
  | case2 => simp [told, trim, trimStart, trimEnd]
  | case3 => rfl
  | case4 piece next pieces ih =>
    rw [told_cons, ih, told_cons piece]
    simp [told]

end Text

namespace ConfigFile

open Variables (ofLines Defines)
open Text (told rows)

def assigned? (line : Text) : Option Category :=
  (Assignment.ofText (Text.trim line)).toOption.bind fun a => Category.ofName? a.name

def defined? (line : Text) : Option Text :=
  (Assignment.ofDefinition (Text.trim line)).toOption.map Assignment.name

/-- A line of the form of an assignment is an entry. -/
theorem entry_of_reads {line : Text} {a : Assignment}
    (h : Assignment.Reads (Text.trim line) (.ok a)) : Entry line := by
  cases h with
  | @assignment name u gap v gap' w hname hne _ _ =>
    obtain ⟨c, name, rfl⟩ := List.exists_cons_of_ne_nil hne
    have hc := hname.all c List.mem_cons_self
    have hline := hname.eq
    refine ⟨?_, ?_⟩
    · rintro (hblank | ⟨rest, hrest⟩)
      · rw [(Text.trim_eq_nil_iff line).2 hblank] at hline
        cases hline
      · rw [hrest] at hline
        obtain rfl := (List.cons.inj hline).1
        exact absurd hc (by decide +kernel)
    · intro rest hrest
      rw [hrest] at hline
      obtain rfl := (List.cons.inj hline).1
      exact absurd hc (by decide +kernel)

theorem assigned?_eq_some_iff {line : Text} {c : Category} :
    assigned? line = some c ↔ ∃ value, Assigns line c value := by
  simp only [assigned?, Option.bind_eq_some_iff, Traversal.toOption_eq_some_iff,
    Assignment.ofText_eq_iff]
  constructor
  · rintro ⟨a, ha, hc⟩
    exact ⟨a.value, entry_of_reads ha, a.name, ha,
      (Category.ofName?_eq_some_iff ha.trim_name).1 hc⟩
  · rintro ⟨value, -, name, ha, hc⟩
    exact ⟨⟨name, value⟩, ha, (Category.ofName?_eq_some_iff ha.trim_name).2 hc⟩

theorem defined?_eq_some_iff {line name : Text} :
    defined? line = some name ↔ ∃ value, Defines line name value := by
  simp only [defined?, Option.map_eq_some_iff, Traversal.toOption_eq_some_iff,
    Variables.ofDefinition_eq_ok_iff]
  constructor
  · rintro ⟨a, ha, rfl⟩
    exact ⟨a.value, ha⟩
  · rintro ⟨value, h⟩
    exact ⟨⟨name, value⟩, h, rfl⟩

/-- The lines are the same in another order, in which the assignments to each category and the
definitions of each variable stand as they stood among themselves. -/
structure Reordered (ls ms : List Text) : Prop where
  perm : ls.Perm ms
  assignments : ∀ c, ls.filter (assigned? · = some c) = ms.filter (assigned? · = some c)
  definitions : ∀ name, ls.filter (defined? · = some name) = ms.filter (defined? · = some name)

theorem Reordered.symm {ls ms : List Text} (h : Reordered ls ms) : Reordered ms ls :=
  ⟨h.perm.symm, fun c => (h.assignments c).symm, fun name => (h.definitions name).symm⟩

theorem filter_told {p : Text → Bool} (hnil : p [] = false) (htrim : ∀ l, p (Text.trim l) = p l)
    (ls : List Text) : (told ls).filter p = (ls.filter p).map Text.trim := by
  have hp : ∀ l, (p l && decide (l ≠ [])) = p l := by
    intro l
    by_cases hl : l = []
    · simp [hl, hnil]
    · simp [hl]
  rw [told, List.filter_filter]
  simp only [hp]
  rw [List.filter_map]
  congr 2
  funext l
  exact htrim l

@[simp] theorem assigned?_trim (line : Text) : assigned? (Text.trim line) = assigned? line := by
  rw [assigned?, Text.trim_trim, assigned?]

@[simp] theorem defined?_trim (line : Text) : defined? (Text.trim line) = defined? line := by
  rw [defined?, Text.trim_trim, defined?]

theorem assigned?_told (ls : List Text) (c : Category) :
    (told ls).filter (assigned? · = some c) =
      (ls.filter (assigned? · = some c)).map Text.trim := by
  apply filter_told
  · rfl
  · simp

theorem defined?_told (ls : List Text) (name : Text) :
    (told ls).filter (defined? · = some name) =
      (ls.filter (defined? · = some name)).map Text.trim := by
  apply filter_told
  · rfl
  · simp

theorem Reordered.told {ls ms : List Text} (h : Reordered ls ms) :
    Reordered (told ls) (told ms) := by
  constructor
  · exact (h.perm.map Text.trim).filter _
  · intro c
    rw [assigned?_told, assigned?_told, h.assignments c]
  · intro name
    rw [defined?_told, defined?_told, h.definitions name]

/-- The value of a variable is a matter of the lines that define it. -/
theorem value?_ofLines_filter (ls : List Text) (name : Text) :
    (ofLines (ls.filter (defined? · = some name))).value? name = (ofLines ls).value? name := by
  induction ls with
  | nil => rfl
  | cons line ls ih =>
    rw [Variables.value?_ofLines_cons line ls]
    by_cases hline : defined? line = some name
    · rw [List.filter_cons_of_pos (by simpa using hline), Variables.value?_ofLines_cons, ih]
    · have hnone : (ofLines [line]).value? name = none := by
        rw [Variables.value?_ofLines_eq_none_iff]
        simpa [defined?_eq_some_iff] using hline
      rw [List.filter_cons_of_neg (by simpa using hline), ih, hnone, Option.or_none]

theorem Reordered.value?_eq {ls ms : List Text} (h : Reordered ls ms) (name : Text) :
    (ofLines ls).value? name = (ofLines ms).value? name := by
  rw [← value?_ofLines_filter ls, ← value?_ofLines_filter ms, h.definitions name]

theorem substitute_congr {vars vars' : Variables}
    (h : ∀ name, vars.value? name = vars'.value? name) (value : Text) :
    vars.substitute value = vars'.substitute value := by
  have hexpand : Piece.expand vars = Piece.expand vars' := by
    ext piece
    cases piece with
    | plain c => rfl
    | reference name => rw [Piece.expand, Piece.expand, h name]
  rw [Variables.substitute_eq, Variables.substitute_eq, hexpand]

/-- Of other lines, only the values that they give to variables matter to a line. -/
theorem adds_congr {lines lines' : List Text}
    (h : ∀ name, (ofLines lines).value? name = (ofLines lines').value? name) {line : Text}
    {x : Option (Category × Text)} : Adds lines line x ↔ Adds lines' line x := by
  rw [← @lineEntry_eq_ok_iff lines 0, ← @lineEntry_eq_ok_iff lines' 0]
  simp only [lineEntry, substitute_congr h]

@[simp] theorem lineEntry_trim (vars : Variables) (n : ℕ) (line : Text) :
    lineEntry vars n (Text.trim line) = lineEntry vars n line := by
  simp only [lineEntry, Text.trim_trim]

theorem adds_trim {lines : List Text} {line : Text} {x : Option (Category × Text)} :
    Adds lines (Text.trim line) x ↔ Adds lines line x := by
  rw [← @lineEntry_eq_ok_iff lines 0, ← @lineEntry_eq_ok_iff lines 0, lineEntry_trim]

/-- The patterns of a category are what the lines add that assign to it. -/
theorem patterns_iff_forall₂ {lines ls ps : List Text} {c : Category} :
    Patterns lines c ls ps ↔
      List.Forall₂ (fun line p => Adds lines line (some (c, p)))
        (ls.filter (assigned? · = some c)) ps := by
  constructor
  · intro h
    induction h with
    | nil => exact .nil
    | @assigned line value pattern rest ps h hp _ ih =>
      have hline : assigned? line = some c := assigned?_eq_some_iff.2 ⟨value, h⟩
      rw [List.filter_cons_of_pos (by simpa using hline)]
      exact .cons (.entry h hp) ih
    | @other line rest ps h _ ih =>
      have hline : assigned? line ≠ some c := by simpa [assigned?_eq_some_iff] using h
      rw [List.filter_cons_of_neg (by simpa using hline)]
      exact ih
  · intro h
    induction ls generalizing ps with
    | nil =>
      cases h
      exact .nil
    | cons line ls ih =>
      by_cases hline : assigned? line = some c
      · rw [List.filter_cons_of_pos (by simpa using hline)] at h
        cases h with
        | cons hadds hrest =>
          cases hadds with
          | entry ha hp => exact .assigned ha hp (ih hrest)
      · rw [List.filter_cons_of_neg (by simpa using hline)] at h
        apply Patterns.other _ (ih h)
        simpa [assigned?_eq_some_iff] using hline

/-- No line has a fault, and each category gets what its assignments add. -/
def Gives (ls : List Text) (config : Config) : Prop :=
  (∀ line ∈ ls, ∃ x, Adds ls line x) ∧
    ∀ c, List.Forall₂ (fun line p => Adds ls line (some (c, p)))
      (ls.filter (assigned? · = some c)) (config.get c)

theorem parse_eq_ok_iff_gives {content : Text} {config : Config} :
    parse content = .ok config ↔ Gives (Text.lines content) config := by
  rw [parse_eq_iff_outcome, Gives]
  simp only [exists_adds_iff, ← patterns_iff_forall₂]
  constructor
  · rintro ⟨⟩
    constructor <;> assumption
  · rintro ⟨h, hp⟩
    exact .accepted h hp

theorem Silent.ofLines_eq {line : Text} (h : Silent line) : ofLines [line] = [] := by
  have herror : (Assignment.ofDefinition (Text.trim line)).toOption = none := by
    rcases h with hblank | ⟨rest, hrest⟩
    · rw [(Text.trim_eq_nil_iff line).2 hblank]
      rfl
    · rw [hrest]
      rfl
  simp [ofLines, herror]

/-- Neither silent lines nor the white space at the ends of a line matter to the variables. -/
theorem ofLines_filter_trim {p : Text → Bool} (h : ∀ line, p (Text.trim line) = false → Silent line)
    (ls : List Text) : ofLines ((ls.map Text.trim).filter p) = ofLines ls := by
  induction ls with
  | nil => rfl
  | cons line ls ih =>
    rw [Variables.ofLines_cons, ← ih, List.map_cons]
    cases hp : p (Text.trim line) with
    | false =>
      rw [List.filter_cons_of_neg (by simp [hp]), (h line hp).ofLines_eq, List.append_nil]
    | true =>
      have htrim : ofLines [Text.trim line] = ofLines [line] := by
        simp [ofLines, List.filterMap_cons]
      rw [List.filter_cons_of_pos hp, Variables.ofLines_cons, htrim]

theorem ofLines_told (ls : List Text) : ofLines (told ls) = ofLines ls := by
  apply ofLines_filter_trim
  intro line hline
  exact Or.inl ((Text.trim_eq_nil_iff line).1 (by simpa using hline))

theorem gives_told {ls : List Text} {config : Config} :
    Gives (told ls) config ↔ Gives ls config := by
  have hadds {line : Text} {x : Option (Category × Text)} :
      Adds (told ls) line x ↔ Adds ls line x := by
    apply adds_congr
    simp [ofLines_told]
  have hblank : ∀ l : Text, Text.trim l = [] → ∃ x, Adds ls l x := by
    intro l hl
    exact ⟨none, .silent (Or.inl ((Text.trim_eq_nil_iff l).1 hl))⟩
  simp only [Gives, hadds, assigned?_told, List.forall₂_map_left_iff, adds_trim]
  refine and_congr_left' ⟨?_, ?_⟩
  · intro h l hl
    by_cases hl' : Text.trim l = []
    · exact hblank l hl'
    · obtain ⟨x, hx⟩ := h (Text.trim l) (by simpa [told, hl'] using ⟨l, hl, rfl⟩)
      exact ⟨x, adds_trim.1 hx⟩
  · intro h l hl
    obtain ⟨⟨m, hm, rfl⟩, -⟩ : (∃ m ∈ ls, Text.trim m = l) ∧ l ≠ [] := by simpa [told] using hl
    obtain ⟨x, hx⟩ := h m hm
    exact ⟨x, adds_trim.2 hx⟩

theorem Reordered.gives {ls ms : List Text} {config : Config} (h : Reordered ls ms)
    (hls : Gives ls config) : Gives ms config := by
  have hadds {line : Text} {x : Option (Category × Text)} :
      Adds ls line x ↔ Adds ms line x := adds_congr h.value?_eq
  simp only [Gives, hadds] at hls
  constructor
  · intro line hline
    exact hls.1 line (h.perm.mem_iff.2 hline)
  · intro c
    rw [← h.assignments c]
    exact hls.2 c

/-- Only the order of the assignments to one category and of the definitions of one variable
matters: with the lines reordered in any other way, a file is accepted as it was before and gives
the same configuration. -/
theorem parse_eq_ok_iff_of_reordered {s t : Text} (h : Reordered (rows s) (rows t))
    (config : Config) : parse s = .ok config ↔ parse t = .ok config := by
  have htold := h.told
  rw [Text.told_rows, Text.told_rows] at htold
  rw [parse_eq_ok_iff_gives, parse_eq_ok_iff_gives, ← gives_told, ← @gives_told (Text.lines t)]
  constructor
  · exact htold.gives
  · exact htold.symm.gives

theorem parse_eq_ok_iff_of_reordered_backwards :
    let s := "$mod = Control\r\nSubmit_Input = $mod+Enter\n\ninsert-newline = Enter".toList
    let t := "insert-newline = Enter\n\nSubmit_Input = $mod+Enter\n$mod = Control\n".toList
    let config : Config := ⟨[], [], ["Enter".toList], ["Control+Enter".toList]⟩
    Reordered (rows s) (rows t) ∧ parse s = .ok config ∧ parse t = .ok config := by
  intro s t config
  let definition := "$mod = Control".toList
  let submit := "Submit_Input = $mod+Enter".toList
  let newline := "insert-newline = Enter".toList
  have hs : rows s = [definition, submit, [], newline] := by decide +kernel
  have ht : rows t = [newline, [], submit, definition] := by decide +kernel
  have hreordered : Reordered (rows s) (rows t) := by
    constructor
    · rw [hs, ht]
      exact List.reverse_perm [newline, [], submit, definition]
    · rw [hs, ht]
      intro c
      cases c <;> decide +kernel
    · rw [hs, ht]
      intro name
      have hdefinition : defined? definition = some "mod".toList := by decide +kernel
      have hsubmit : defined? submit = none := by decide +kernel
      have hnewline : defined? newline = none := by decide +kernel
      have hblank : defined? [] = none := rfl
      simp [List.filter_cons, hdefinition, hsubmit, hnewline, hblank]
  have hparse : parse s = .ok config := by decide +kernel
  exact ⟨hreordered, hparse, (parse_eq_ok_iff_of_reordered hreordered config).1 hparse⟩

end ConfigFile

end Keymap

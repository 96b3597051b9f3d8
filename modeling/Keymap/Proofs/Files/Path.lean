import Keymap.Files.Path
import Keymap.Proofs.Text.Trim

/-! # What a path names, and what its directory names

Idle segments aside, the directory of a path has the names of the path without the
last one, which is the name that the path ends in. It starts at the root if and
only if the path does. This holds of every spelling, with idle segments at the
start, at the end and between the names.
-/
namespace Keymap.Path

def names (path : Text) : List Text := (path.splitOn '/').filter (!isIdle ·)

/-- Whether the last segment says something, which a slash or a lone dot at the end does not. -/
def EndsInName (path : Text) : Prop := ∃ name ∈ (path.splitOn '/').getLast?, isIdle name = false

def segments (path : Text) : List Text := (path.drop (lead path).length).splitOn '/'

theorem isIdle_dotDot : isIdle dotDot = false := rfl

theorem dotDot_mem_names_iff {path : Text} : dotDot ∈ names path ↔ dotDot ∈ path.splitOn '/' := by
  simp [names, isIdle_dotDot]

/-! ## Texts of segments -/

theorem splitOn_slash_cons (s : Text) : ('/' :: s).splitOn '/' = [] :: s.splitOn '/' := by
  simp [List.splitOn_cons_eq_if_modifyHead]

theorem splitOn_dot_slash_cons (s : Text) :
    ('.' :: '/' :: s).splitOn '/' = dot :: s.splitOn '/' := by
  simp [List.splitOn_cons_eq_if_modifyHead, dot]

theorem join_cons (segment : Text) {others : List Text} (h : others ≠ []) :
    Text.join ['/'] (segment :: others) = segment ++ '/' :: Text.join ['/'] others := by
  obtain ⟨second, others, rfl⟩ := List.exists_cons_of_ne_nil h
  rw [Text.join, Text.join, List.intercalate_cons_cons]
  simp

theorem names_join {parts : List Text} (h : ∀ part ∈ parts, '/' ∉ part) :
    names (Text.join ['/'] parts) = parts.filter (!isIdle ·) := by
  cases parts with
  | nil => rfl
  | cons first others =>
    rw [names, Text.join, List.splitOn_intercalate '/' h (List.cons_ne_nil first others)]

theorem join_isPrefix {before all : List Text} (h : before <+: all) :
    Text.join ['/'] before <+: Text.join ['/'] all := by
  obtain ⟨after, rfl⟩ := h
  induction before with
  | nil => exact List.nil_prefix
  | cons first before ih =>
    by_cases hbefore : before = []
    · by_cases hafter : after = []
      · rw [hbefore, hafter]
        exact List.prefix_rfl
      · rw [hbefore, List.singleton_append, join_cons first hafter]
        simp [Text.join]
    · rw [List.cons_append, join_cons first hbefore, join_cons first (by simp [hbefore])]
      simpa using ih

/-! ## The four ways to begin -/

theorem cases_lead (path : Text) :
    (∃ rest, path = '/' :: rest) ∨ path = dot ∨ (∃ rest, path = '.' :: '/' :: rest) ∨
      (lead path = [] ∧ isAbsolute path = false) := by
  unfold lead
  split
  case h_1 rest => exact Or.inl ⟨rest, rfl⟩
  case h_2 => exact Or.inr (Or.inl rfl)
  case h_3 rest => exact Or.inr (Or.inr (Or.inl ⟨rest, rfl⟩))
  case h_4 hslash _ _ =>
    refine Or.inr (Or.inr (Or.inr ⟨rfl, ?_⟩))
    cases path with
    | nil => rfl
    | cons c rest =>
      have hc : c ≠ '/' := fun hc => hslash rest (by rw [hc])
      simpa [isAbsolute] using hc

theorem segments_slash_cons (rest : Text) : segments ('/' :: rest) = rest.splitOn '/' := rfl

theorem segments_dot : segments dot = [[]] := rfl

theorem segments_dot_slash_cons (rest : Text) :
    segments ('.' :: '/' :: rest) = [] :: rest.splitOn '/' :=
  splitOn_slash_cons rest

theorem segments_of_lead_eq_nil {path : Text} (h : lead path = []) :
    segments path = path.splitOn '/' := by
  rw [segments, h]
  rfl

theorem names_eq_filter_segments (path : Text) :
    names path = (segments path).filter (!isIdle ·) := by
  rcases cases_lead path with ⟨rest, rfl⟩ | rfl | ⟨rest, rfl⟩ | ⟨h, -⟩
  · simp [names, splitOn_slash_cons, segments_slash_cons, isIdle]
  · rfl
  · simp [names, splitOn_dot_slash_cons, segments_dot_slash_cons, isIdle]
  · rw [names, segments_of_lead_eq_nil h]

theorem join_segments (path : Text) : lead path ++ Text.join ['/'] (segments path) = path := by
  rw [segments, Text.join, List.intercalate_splitOn]
  unfold lead
  split <;> rfl

theorem not_mem_of_mem_segments {path segment : Text} (h : segment ∈ segments path) :
    '/' ∉ segment :=
  Text.not_mem_of_mem_splitOn h

/-- Behind a dot the first segment is empty, so that the dot stays a segment of its own. -/
theorem names_dot_append_join {kept others : List Text} (h : kept <+: [] :: others)
    (hslash : ∀ segment ∈ kept, '/' ∉ segment) :
    names (dot ++ Text.join ['/'] kept) = kept.filter (!isIdle ·) := by
  cases kept with
  | nil => rfl
  | cons first kept =>
    obtain ⟨rfl, -⟩ := List.cons_prefix_cons.1 h
    by_cases hkept : kept = []
    · rw [hkept]
      rfl
    · have hjoin := names_join fun segment hsegment =>
        hslash segment (List.mem_cons_of_mem [] hsegment)
      rw [join_cons [] hkept, List.filter_cons_of_neg (by simp [isIdle]), ← hjoin]
      simp [names, dot, splitOn_dot_slash_cons, isIdle]

/-! ## The segments from the end -/

theorem reverse_isPrefix_of_isSuffix {path : Text} {kept : List Text}
    (h : kept <:+ segmentsUp path) : kept.reverse <+: segments path := by
  have hup : segmentsUp path <:+ (segments path).reverse := List.dropWhile_suffix _
  simpa using List.reverse_prefix.2 (h.trans hup)

theorem filter_dropWhile_isIdle (parts : List Text) :
    (parts.dropWhile isIdle).filter (!isIdle ·) = parts.filter (!isIdle ·) := by
  induction parts with
  | nil => rfl
  | cons part parts ih => cases h : isIdle part <;> simp [h, ih]

theorem names_eq_filter_segmentsUp (path : Text) :
    names path = ((segmentsUp path).filter (!isIdle ·)).reverse := by
  rw [names_eq_filter_segments, segmentsUp, filter_dropWhile_isIdle, List.filter_reverse,
    List.reverse_reverse]
  rfl

theorem isIdle_of_segmentsUp {path name : Text} {outer : List Text}
    (h : segmentsUp path = name :: outer) : isIdle name = false := by
  have hhead := List.head?_dropWhile_not isIdle (segments path).reverse
  rw [show (segments path).reverse.dropWhile isIdle = name :: outer from h] at hhead
  exact hhead

theorem names_of_segmentsUp {path name : Text} {outer : List Text}
    (h : segmentsUp path = name :: outer) :
    names path = (outer.filter (!isIdle ·)).reverse ++ [name] := by
  rw [names_eq_filter_segmentsUp, h]
  simp [isIdle_of_segmentsUp h]

theorem names_eq_nil_of_segmentsUp {path : Text} (h : segmentsUp path = []) : names path = [] := by
  rw [names_eq_filter_segmentsUp, h]
  rfl

theorem fileName?_eq_some_iff {path name : Text} :
    fileName? path = some name ↔ (names path).getLast? = some name ∧ name ≠ dotDot := by
  cases h : segmentsUp path with
  | nil => simp [fileName?, h, names_eq_nil_of_segmentsUp h]
  | cons last outer =>
    simp only [fileName?, h, names_of_segmentsUp h, List.getLast?_concat, Option.some_inj]
    split_ifs with hlast
    · simp only [false_iff, not_and, not_not]
      rintro rfl
      exact hlast
    · simp only [Option.some_inj]
      constructor
      · rintro rfl
        exact ⟨rfl, hlast⟩
      · exact And.left

/-! ## Texts that keep the segments at the start -/

section Kept

variable {path : Text} {kept : List Text}

theorem ofSegmentsUp_isPrefix (h : kept <:+ segmentsUp path) :
    ofSegmentsUp (lead path) kept <+: path := by
  have hjoin := join_isPrefix (reverse_isPrefix_of_isSuffix h)
  have hpath := (List.prefix_append_right_inj (lead path)).2 hjoin
  rwa [join_segments] at hpath

theorem isAbsolute_ofSegmentsUp (h : kept <:+ segmentsUp path)
    (hne : ofSegmentsUp (lead path) kept ≠ []) :
    isAbsolute (ofSegmentsUp (lead path) kept) = isAbsolute path := by
  obtain ⟨c, rest, hc⟩ := List.exists_cons_of_ne_nil hne
  obtain ⟨after, rfl⟩ : c :: rest <+: path := hc ▸ ofSegmentsUp_isPrefix h
  rw [hc]
  rfl

theorem names_ofSegmentsUp (h : kept <:+ segmentsUp path) :
    names (ofSegmentsUp (lead path) kept) = (kept.filter (!isIdle ·)).reverse := by
  have hstart := reverse_isPrefix_of_isSuffix h
  have hslash : ∀ segment ∈ kept.reverse, '/' ∉ segment := fun segment hsegment =>
    not_mem_of_mem_segments (hstart.subset hsegment)
  rw [← List.filter_reverse]
  rcases cases_lead path with ⟨rest, rfl⟩ | rfl | ⟨rest, rfl⟩ | ⟨hlead, -⟩
  · rw [← names_join hslash]
    simp [ofSegmentsUp, names, lead, splitOn_slash_cons, isIdle]
  · rw [segments_dot] at hstart
    exact names_dot_append_join hstart hslash
  · rw [segments_dot_slash_cons] at hstart
    exact names_dot_append_join hstart hslash
  · rw [ofSegmentsUp, hlead, List.nil_append, names_join hslash]

/-- The text that keeps all segments from the name on ends in that name. -/
theorem endsInName_ofSegmentsUp {name : Text} {outer : List Text}
    (h : segmentsUp path = name :: outer) :
    EndsInName (ofSegmentsUp (lead path) (segmentsUp path)) := by
  have hstart : (segmentsUp path).reverse <+: segments path :=
    reverse_isPrefix_of_isSuffix List.suffix_rfl
  have hsplit : (Text.join ['/'] (segmentsUp path).reverse).splitOn '/' =
      (segmentsUp path).reverse :=
    List.splitOn_intercalate '/'
      (fun segment hsegment => not_mem_of_mem_segments (hstart.subset hsegment)) (by simp [h])
  have hlast : (segmentsUp path).reverse.getLast? = some name := by simp [h]
  have hidle := isIdle_of_segmentsUp h
  refine ⟨name, ?_, hidle⟩
  rw [ofSegmentsUp, Option.mem_def]
  generalize (segmentsUp path).reverse = kept at hstart hsplit hlast
  rcases cases_lead path with ⟨rest, rfl⟩ | rfl | ⟨rest, rfl⟩ | ⟨hlead, -⟩
  · rw [show lead ('/' :: rest) = ['/'] from rfl, List.singleton_append, splitOn_slash_cons,
      hsplit, List.getLast?_cons, hlast]
    rfl
  · cases h
  · rw [segments_dot_slash_cons] at hstart
    cases kept with
    | nil => cases hlast
    | cons first others =>
      obtain ⟨rfl, -⟩ := List.cons_prefix_cons.1 hstart
      have hothers : others ≠ [] := by
        rintro rfl
        rw [← Option.some.inj hlast] at hidle
        cases hidle
      rw [join_cons [] hothers, List.nil_append, splitOn_slash_cons, List.cons_inj_right] at hsplit
      rw [join_cons [] hothers, List.nil_append, show lead ('.' :: '/' :: rest) = dot from rfl, dot,
        List.singleton_append, splitOn_dot_slash_cons, hsplit, ← hlast]
      obtain ⟨second, others, rfl⟩ := List.exists_cons_of_ne_nil hothers
      rw [List.getLast?_cons_cons, List.getLast?_cons_cons]
  · rw [hlead, List.nil_append, hsplit, hlast]

end Kept

/-! ## The directory -/

theorem directory_eq {path name : Text} {outer : List Text} (h : segmentsUp path = name :: outer) :
    directory path =
      if ofSegmentsUp (lead path) (outer.dropWhile isIdle) = [] then dot
      else ofSegmentsUp (lead path) (outer.dropWhile isIdle) := by
  simp only [directory, parent?, h]
  cases ofSegmentsUp (lead path) (outer.dropWhile isIdle) with
  | nil => rfl
  | cons c rest => rfl

theorem dropWhile_isSuffix_segmentsUp {path name : Text} {outer : List Text}
    (h : segmentsUp path = name :: outer) : outer.dropWhile isIdle <:+ segmentsUp path := by
  rw [h]
  exact (List.dropWhile_suffix isIdle).trans (List.suffix_cons name outer)

/-- The directory has the names of the path without the last one. -/
theorem names_directory (path : Text) : names (directory path) = (names path).dropLast := by
  cases h : segmentsUp path with
  | nil =>
    rw [names_eq_nil_of_segmentsUp h]
    simp only [directory, parent?, h]
    split_ifs <;> rfl
  | cons name outer =>
    have hnames := names_ofSegmentsUp (dropWhile_isSuffix_segmentsUp h)
    rw [filter_dropWhile_isIdle] at hnames
    rw [names_of_segmentsUp h, List.dropLast_concat, ← hnames, directory_eq h]
    split_ifs with hnil
    · rw [hnil]
      rfl
    · rfl

theorem isAbsolute_directory {path : Text} (h : names path ≠ []) :
    isAbsolute (directory path) = isAbsolute path := by
  obtain ⟨name, outer, hup⟩ :=
    List.exists_cons_of_ne_nil fun hnil => h (names_eq_nil_of_segmentsUp hnil)
  rw [directory_eq hup]
  split_ifs with hnil
  · rcases cases_lead path with ⟨rest, rfl⟩ | rfl | ⟨rest, rfl⟩ | ⟨-, habsolute⟩
    · cases hnil
    · rfl
    · rfl
    · rw [habsolute]
      rfl
  · exact isAbsolute_ofSegmentsUp (dropWhile_isSuffix_segmentsUp hup) hnil

/-- What is taken off a path to get its parent stands at its end. -/
theorem parent?_isPrefix {path parent : Text} (h : parent? path = some parent) :
    parent <+: path := by
  cases hup : segmentsUp path with
  | nil =>
    simp only [parent?, hup] at h
    split_ifs at h
    rw [← Option.some.inj h]
    exact List.nil_prefix
  | cons name outer =>
    simp only [parent?, hup] at h
    rw [← Option.some.inj h]
    exact ofSegmentsUp_isPrefix (dropWhile_isSuffix_segmentsUp hup)

theorem directory_ne_nil (path : Text) : directory path ≠ [] := by
  unfold directory
  split <;> simp [dot]

end Keymap.Path

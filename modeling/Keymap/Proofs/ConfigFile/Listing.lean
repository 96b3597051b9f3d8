import Keymap.Proofs.Bindings.Patterns
import Keymap.Proofs.ConfigFile.TwoPass

/-! # Bindings written as a configuration file

A line names a category and shows one of its chords. Whatever the chord is, the line
reads back as it stands: what is shown for a chord has no white space, so trimming and
the division into lines leave it alone, and a dollar sign in it stands alone and
refers to nothing. Main statement: one such line for each chord makes a file of the
bindings, in whatever order the categories take turns.
-/
namespace Keymap

theorem Text.mem_join {separator : Text} {ts : List Text} {c : Char} (h : c ∈ join separator ts) :
    c ∈ separator ∨ ∃ t ∈ ts, c ∈ t := by
  induction ts with
  | nil => simp [join] at h
  | cons t ts ih =>
    cases ts with
    | nil => simpa [join] using Or.inr h
    | cons u ts =>
      rw [join, List.intercalate_cons_cons, List.append_assoc, List.mem_append,
        List.mem_append] at h
      rcases h with h | h | h
      · exact Or.inr ⟨t, List.mem_cons_self, h⟩
      · exact Or.inl h
      · rcases ih h with h | ⟨v, hv, hc⟩
        · exact Or.inl h
        · exact Or.inr ⟨v, List.mem_cons_of_mem t hv, hc⟩

theorem Text.flatMap_newline_eq_join (ls : List Text) :
    ls.flatMap (· ++ ['\n']) = join ['\n'] (ls ++ [[]]) := by
  induction ls with
  | nil => rfl
  | cons l ls ih =>
    rw [List.flatMap_cons, ih, join, join, List.cons_append]
    cases ls <;> simp [List.intercalate_cons_cons]

/-- Lines with a newline behind each of them are the lines of the text, before an empty one. -/
theorem Text.lines_flatMap_newline {ls : List Text} (h : ∀ l ∈ ls, '\n' ∉ l) :
    lines (ls.flatMap (· ++ ['\n'])) = ls ++ [[]] := by
  rw [lines, flatMap_newline_eq_join]
  refine List.splitOn_intercalate '\n' ?_ (by simp)
  intro l hl
  rcases List.mem_append.1 hl with hl | hl
  · exact h l hl
  · simp [List.mem_singleton.1 hl]

theorem Text.trim_eq_self_of_ends {s : Text} (hfirst : ∀ c ∈ s.head?, ¬ isBlank c)
    (hlast : ∀ c ∈ s.getLast?, ¬ isBlank c) : trim s = s := by
  cases s with
  | nil => rfl
  | cons c s =>
    have hstart : trimStart (c :: s) = c :: s := List.dropWhile_cons_of_neg (hfirst c rfl)
    rw [trim, hstart, trimEnd_eq_rdropWhile, List.rdropWhile_eq_self_iff]
    intro hne
    exact hlast _ (List.getLast?_eq_some_getLast hne)

namespace Chord

variable {chord : Chord}

/-- What is shown for a chord is made of letters, digits and plus signs, unless it is a literal. -/
theorem mem_display_cases (h : chord.IsReadable) {c : Char} (hc : c ∈ chord.display) :
    c.isAlphanum = true ∨ c = '+' ∨ chord = .literal c := by
  cases chord with
  | unconfigured => cases hc
  | named k ms =>
    rw [display_named] at hc
    rcases Text.mem_join hc with hc | ⟨t, ht, hc⟩
    · exact Or.inr (Or.inl (List.mem_singleton.1 hc))
    · exact Or.inl (Pattern.isAlphanum_of_mem_shown h ht hc)
  | literal d => exact Or.inr (Or.inr (congrArg literal (List.mem_singleton.1 hc).symm))

theorem not_isBlank_of_mem_display (h : chord.IsReadable) {c : Char} (hc : c ∈ chord.display) :
    ¬ Text.isBlank c := by
  rcases mem_display_cases h hc with hc | rfl | rfl
  · exact Text.not_isBlank_of_isAlphanum hc
  · decide
  · exact h.1

theorem display_ne_nil (h : chord.isConfigured) : chord.display ≠ [] := by
  cases chord with
  | unconfigured => cases h
  | named k ms =>
    rw [display]
    split
    · exact k.display_ne_nil
    · simp
  | literal c => exact List.cons_ne_nil _ _

end Chord

namespace Piece

/-- What is shown for a chord refers to no variable. -/
theorem pieces_display {chord : Chord} (h : chord.IsReadable) :
    Pieces chord.display (chord.display.map plain) := by
  by_cases hc : '$' ∈ chord.display
  · rcases Chord.mem_display_cases h hc with hc | hc | rfl
    · exact absurd hc (by decide)
    · exact absurd hc (by decide)
    · exact .plain (fun _ => ⟨rfl, by simp, by simp⟩) .nil
  · exact pieces_plain hc

end Piece

namespace ConfigFile

def bindingLine (c : Category) (chord : Chord) : Text := c.name ++ " = ".toList ++ chord.display

def listing (bound : List (Category × Chord)) : Text :=
  bound.flatMap fun x => bindingLine x.1 x.2 ++ ['\n']

end ConfigFile

/-- The chords of the bindings with their categories, those of one category in their order and the
categories in turns of any length. -/
def Bindings.ListedBy (b : Bindings) (bound : List (Category × Chord)) : Prop :=
  ∀ c, (bound.filter fun x => x.1 == c).map Prod.snd = b.get c

theorem Assignment.isBlank_of_isGap {c : Char} (h : isGap c = true) : Text.isBlank c := by
  rw [isGap, Bool.or_eq_true, beq_iff_eq, beq_iff_eq] at h
  rcases h with rfl | rfl <;> decide

namespace Category

theorem exists_name_eq_cons (c : Category) : ∃ x s, c.name = x :: s ∧ x.isAlphanum = true := by
  cases c <;> exact ⟨_, _, rfl, by decide⟩

theorem isNameChar_of_mem_name (c : Category) : ∀ x ∈ c.name, Assignment.isNameChar x = true := by
  have h : c.name.all fun x => x.isAlphanum || x == '-' := by cases c <;> decide
  intro x hx
  have hcases := List.all_eq_true.1 h x hx
  rw [Bool.or_eq_true, beq_iff_eq] at hcases
  rcases hcases with hx | rfl
  · rw [Assignment.isNameChar, Text.isAlphanumeric_of_isAlphanum x hx]
    rfl
  · rfl

end Category

namespace ConfigFile

variable {chord : Chord}

theorem trim_bindingLine (c : Category) (hr : chord.IsReadable) (hc : chord.isConfigured) :
    Text.trim (bindingLine c chord) = bindingLine c chord := by
  obtain ⟨x, s, hname, hx⟩ := c.exists_name_eq_cons
  refine Text.trim_eq_self_of_ends ?_ ?_
  · intro y hy
    rw [bindingLine, hname] at hy
    rw [← Option.some.inj hy]
    exact Text.not_isBlank_of_isAlphanum hx
  · intro y hy
    rw [bindingLine, List.getLast?_append_of_ne_nil _ (Chord.display_ne_nil hc)] at hy
    exact Chord.not_isBlank_of_mem_display hr (List.mem_of_getLast? hy)

theorem newline_not_mem_bindingLine (c : Category) (hr : chord.IsReadable) :
    '\n' ∉ bindingLine c chord := by
  intro h
  rcases List.mem_append.1 h with h | h
  · revert h
    cases c <;> decide
  · exact Chord.not_isBlank_of_mem_display hr h (by decide)

/-- The line has the form of an assignment of what is shown for the chord. -/
theorem reads_bindingLine (c : Category) (hr : chord.IsReadable) :
    Assignment.Reads (bindingLine c chord) (.ok ⟨c.name, chord.display⟩) := by
  have hblank : ∀ x ∈ chord.display, ¬ Text.isBlank x :=
    fun x hx => Chord.not_isBlank_of_mem_display hr hx
  have hend : Text.trimEnd chord.display = chord.display := by
    rw [Text.trimEnd_eq_rdropWhile, List.rdropWhile_eq_self_iff]
    intro hne
    exact hblank _ (List.getLast_mem hne)
  have hname : Text.Run Assignment.isNameChar (bindingLine c chord) c.name
      (" = ".toList ++ chord.display) := by
    refine ⟨List.append_assoc _ _ _, c.isNameChar_of_mem_name, ?_⟩
    intro x hx
    rw [← Option.some.inj hx]
    decide +kernel
  have hgap : Text.Run Assignment.isGap (" = ".toList ++ chord.display) [' ']
      ('=' :: ' ' :: chord.display) := by
    refine ⟨rfl, by simp [Assignment.isGap], ?_⟩
    intro x hx
    rw [← Option.some.inj hx]
    decide
  have hgap' : Text.Run Assignment.isGap (' ' :: chord.display) [' '] chord.display := by
    refine ⟨rfl, by simp [Assignment.isGap], ?_⟩
    intro x hx
    by_contra hgapx
    exact hblank x (List.mem_of_mem_head? hx) (Assignment.isBlank_of_isGap (by simpa using hgapx))
  obtain ⟨x, s, hcons, -⟩ := c.exists_name_eq_cons
  have h := Assignment.Reads.assignment hname (hcons ▸ List.cons_ne_nil x s) hgap hgap'
  rwa [hend] at h

theorem entry_bindingLine (c : Category) (hr : chord.IsReadable) (hc : chord.isConfigured) :
    Entry (bindingLine c chord) := by
  obtain ⟨x, s, hname, hx⟩ := c.exists_name_eq_cons
  have hfirst : bindingLine c chord = x :: (s ++ " = ".toList ++ chord.display) := by
    rw [bindingLine, hname]
    rfl
  rw [Entry, Silent, trim_bindingLine c hr hc, hfirst]
  refine ⟨?_, ?_⟩
  · rintro (hblank | ⟨rest, hrest⟩)
    · exact Text.not_isBlank_of_isAlphanum hx (hblank x List.mem_cons_self)
    · obtain rfl := (List.cons.inj hrest).1
      exact absurd hx (by decide)
  · intro rest hrest
    obtain rfl := (List.cons.inj hrest).1
    exact absurd hx (by decide)

/-- Whatever variables there are, the line adds what is shown for the chord. -/
theorem adds_bindingLine (lines : List Text) (c : Category) (hr : chord.IsReadable)
    (hc : chord.isConfigured) : Adds lines (bindingLine c chord) (some (c, chord.display)) := by
  have hassigns : Assigns (bindingLine c chord) c chord.display := by
    refine ⟨entry_bindingLine c hr hc, c.name, ?_, rfl⟩
    rw [trim_bindingLine c hr hc]
    exact reads_bindingLine c hr
  refine .entry hassigns ⟨_, chord.display.map fun x => [x], Piece.pieces_display hr, ?_, ?_⟩
  · rw [Traversal.forall₂_map_map_iff]
    intro x _
    exact .plain x
  · rw [← List.flatMap_def, List.flatMap_singleton']

theorem lines_listing {bound : List (Category × Chord)}
    (hr : ∀ x ∈ bound, x.2.IsReadable) :
    Text.lines (listing bound) = bound.map (fun x => bindingLine x.1 x.2) ++ [[]] := by
  have hlines : ∀ line ∈ bound.map fun x => bindingLine x.1 x.2, '\n' ∉ line := by
    intro line hline
    obtain ⟨x, hx, rfl⟩ := List.mem_map.1 hline
    exact newline_not_mem_bindingLine x.1 (hr x hx)
  rw [← Text.lines_flatMap_newline hlines, List.flatMap_map, listing]

theorem parse_listing {bound : List (Category × Chord)}
    (hbound : ∀ x ∈ bound, x.2.IsReadable ∧ x.2.isConfigured) :
    parse (listing bound) = .ok (Config.ofEntries (bound.map fun x => (x.1, x.2.display))) := by
  rw [parse_eq_ok_iff, lines_listing fun x hx => (hbound x hx).1]
  refine ⟨bound.map (fun x => some (x.1, x.2.display)) ++ [none], ?_, ?_⟩
  · refine List.rel_append ?_ (.cons (.silent (Or.inl (by simp))) .nil)
    rw [Traversal.forall₂_map_map_iff]
    intro x hx
    exact adds_bindingLine _ x.1 (hbound x hx).1 (hbound x hx).2
  · simp [List.filterMap_append, List.filterMap_map]

theorem ofEntries_display {b : Bindings} {bound : List (Category × Chord)}
    (h : b.ListedBy bound) :
    Config.ofEntries (bound.map fun x => (x.1, x.2.display)) = b.patterns := by
  refine ByCategory.ext_get ?_
  intro c
  rw [Config.ofEntries, Bindings.patterns, ByCategory.get_ofFun, ByCategory.get_ofFun, ← h c,
    List.filter_map, List.map_map, List.map_map]
  rfl

/-- A file can carry every set of bindings: one line for each chord, with the chords of a category
in their order, reads as a configuration of just these bindings. -/
theorem build_parse_listing {b : Bindings} (hb : b.Assembled) {bound : List (Category × Chord)}
    (h : b.ListedBy bound) :
    ∃ config, parse (listing bound) = .ok config ∧ Bindings.build config = .ok b := by
  refine ⟨b.patterns, ?_, Bindings.build_patterns hb⟩
  rw [← ofEntries_display h]
  refine parse_listing ?_
  intro x hx
  refine hb.wellFormed x.1 x.2 ?_
  rw [← h x.1]
  exact List.mem_map_of_mem (List.mem_filter.2 ⟨hx, beq_self_eq_true x.1⟩)

def signs : Bindings :=
  { Bindings.default with
    insertNewline := [.literal '=', .named .enter { control := true, alt := true }]
    submitInput := [.literal '#', .literal '$', .literal '"'] }

def signsInTurns : List (Category × Chord) :=
  [(.submitInput, .literal '#'), (.commitCompletion, .named .enter {}),
    (.insertNewline, .literal '='), (.commitCompletion, .named .tab {}),
    (.submitInput, .literal '$'), (.commitCompletion, .named .space {}),
    (.triggerCompletionList, .named .space { control := true }),
    (.insertNewline, .named .enter { control := true, alt := true }),
    (.triggerCompletionList, .named (.letter 'J') { control := true }),
    (.commitCompletion, .literal '.'), (.submitInput, .literal '"'),
    (.commitCompletion, .literal '(')]

theorem build_parse_listing_signs :
    signs.Assembled ∧ signs.ListedBy signsInTurns ∧
      ∃ config, parse (listing signsInTurns) = .ok config ∧ Bindings.build config = .ok signs := by
  have hbuild : Bindings.build signs.patterns = .ok signs := by decide +kernel
  have hlisted : signs.ListedBy signsInTurns := by
    intro c
    cases c <;> rfl
  exact ⟨.built hbuild, hlisted, build_parse_listing (.built hbuild) hlisted⟩

end ConfigFile

end Keymap

import Keymap.Command.Report
import Keymap.Proofs.Bindings.Display
import Keymap.Proofs.Conflict.Dispatch

/-! # What the lines of the output say

A line of the output tells the effect of a press, the chords of a category or the categories of a
chord that several of them bind. For each of these there is a form, and what a line of the form
tells can be read off it: no other effect, no other chords and no other categories have the same
line. Statements about the output can thus name what is told in the place of the line.
-/
namespace Keymap

theorem Category.name_injective : Function.Injective Category.name := by
  intro c d h
  have hname := ofExactName?_name c
  rw [h, ofExactName?_name] at hname
  exact (Option.some.inj hname).symm

theorem Category.newline_not_mem_name (c : Category) : '\n' ∉ c.name := by
  cases c <;> decide

theorem Category.name_ne_nil_and_space_not_mem (c : Category) : c.name ≠ [] ∧ ' ' ∉ c.name := by
  cases c <;> decide

/-- The press that a chord describes is shown like the chord. -/
theorem Chord.display_of_press? {chord : Chord} {press : KeyPress}
    (h : chord.press? = some press) : press.display = chord.display := by
  cases chord with
  | unconfigured => cases h
  | named key ms =>
    obtain rfl := Option.some.inj h
    rw [KeyPress.display, display]
    cases hms : ms.isEmpty <;> simp [KeyPress.ofKey, hms]
  | literal c =>
    obtain rfl := Option.some.inj h
    rfl

theorem Chord.space_not_mem_display {chord : Chord} (h : chord.IsReadable) :
    ' ' ∉ chord.display :=
  fun hspace => not_isBlank_of_mem_display h hspace (by decide)

theorem Chord.newline_not_mem_display {chord : Chord} (h : chord.IsReadable) :
    '\n' ∉ chord.display :=
  fun hnewline => not_isBlank_of_mem_display h hnewline (by decide)

namespace Text

theorem styled_injective (colour : Bool) (style : Style) :
    Function.Injective (styled colour style) := by
  intro s t h
  cases colour with
  | false => exact h
  | true => simpa [styled] using h

/-- No white space is in what turns a style on or off. -/
theorem not_mem_styled {x : Char} (hx : x = ' ' ∨ x = '\n') {s : Text} (h : x ∉ s)
    (colour : Bool) (style : Style) : x ∉ styled colour style s := by
  cases colour with
  | false => exact h
  | true =>
    have hparameters : x ∉ style.parameters.toList := by
      rcases hx with rfl | rfl <;> cases style <;> decide
    rcases hx with rfl | rfl <;> simp [styled, h, hparameters]

theorem newline_not_mem_styled {s : Text} (h : '\n' ∉ s) (colour : Bool) (style : Style) :
    '\n' ∉ styled colour style s :=
  not_mem_styled (.inr rfl) h colour style

/-- Texts without spaces are the same up to the arrow between two parts, and so are the parts behind
it. -/
theorem eq_and_eq_of_append_arrow {s s' rest rest' : Text} (hs : ' ' ∉ s) (hs' : ' ' ∉ s')
    (h : s ++ " → ".toList ++ rest = s' ++ " → ".toList ++ rest') : s = s' ∧ rest = rest' := by
  have harrow : " → ".toList = ' ' :: "→ ".toList := rfl
  rw [List.append_assoc, List.append_assoc, harrow, List.cons_append, List.cons_append] at h
  obtain ⟨hfront, hrest⟩ := eq_and_eq_of_append_cons hs hs' h
  exact ⟨hfront, List.append_cancel_left hrest⟩

theorem newline_not_mem_ofNat (n : Nat) : '\n' ∉ ofNat n := by
  intro h
  have hdigit := Nat.isDigit_of_mem_toDigits (by decide) (by decide) h
  exact absurd hdigit (by decide)

theorem newline_not_mem_join {separator : Text} {ts : List Text} (hseparator : '\n' ∉ separator)
    (hts : ∀ t ∈ ts, '\n' ∉ t) : '\n' ∉ join separator ts := by
  intro h
  rcases mem_join h with h | ⟨t, ht, h⟩
  · exact hseparator h
  · exact hts t ht h

end Text

namespace Command

variable {colour : Bool} {b : Bindings}

/-! ## Effects of presses -/

inductive Effect where
  /-- A blank key is no press. -/
  | skipped
  | triggers (c : Category)
  | misses (c : Category)
  | nothing

namespace Effect

variable {press : KeyPress} {chord : Chord} {category? : Option Category} {e e' : Effect}

def line (colour : Bool) (chord : Chord) : Effect → Text
  | skipped => Text.styled colour .dim "-".toList ++ " empty key press skipped".toList
  | triggers c =>
    Text.styled colour .green "✓".toList ++ ' ' :: Text.styled colour .bold chord.display ++
      " → ".toList ++ c.name
  | misses c =>
    Text.styled colour .red "✗".toList ++ ' ' :: Text.styled colour .bold chord.display ++
      " does not trigger ".toList ++ c.name
  | nothing =>
    Text.styled colour .dim "-".toList ++ ' ' :: Text.styled colour .bold chord.display ++
      " → ".toList ++ Text.styled colour .dim "no action".toList

def sign : Effect → Char
  | triggers _ => '✓'
  | misses _ => '✗'
  | skipped | nothing => '-'

theorem sign_eq_of_line_eq (h : e.line colour chord = e'.line colour chord) : e.sign = e'.sign := by
  cases colour <;> cases e <;> cases e' <;>
    first
      | rfl
      | simp [line, Text.styled, Text.Style.parameters] at h

theorem line_skipped_ne_line_nothing (colour : Bool) (chord : Chord) :
    line colour chord .skipped ≠ line colour chord .nothing := by
  intro h
  have hlast := congrArg List.getLast? h
  cases colour <;>
    simp [line, Text.styled, Text.Style.parameters, List.getLast?_cons,
      List.getLast?_append] at hlast

/-- The line of a key tells its effect. -/
theorem line_injective (colour : Bool) (chord : Chord) :
    Function.Injective (line colour chord) := by
  intro e e' h
  have hsign := sign_eq_of_line_eq h
  cases e with
  | skipped =>
    cases e' with
    | skipped => rfl
    | nothing => exact absurd h (line_skipped_ne_line_nothing colour chord)
    | _ => simp [sign] at hsign
  | triggers c =>
    cases e' with
    | triggers d => rw [Category.name_injective (List.append_cancel_left h)]
    | _ => simp [sign] at hsign
  | misses c =>
    cases e' with
    | misses d => rw [Category.name_injective (List.append_cancel_left h)]
    | _ => simp [sign] at hsign
  | nothing =>
    cases e' with
    | skipped => exact absurd h.symm (line_skipped_ne_line_nothing colour chord)
    | nothing => rfl
    | _ => simp [sign] at hsign

theorem newline_not_mem_line (hchord : chord.IsReadable) (colour : Bool) (e : Effect) :
    '\n' ∉ e.line colour chord := by
  have hshown := Text.newline_not_mem_styled (Chord.newline_not_mem_display hchord) colour .bold
  have hmark {s : Text} (hs : '\n' ∉ s) (style : Text.Style) :
      '\n' ∉ Text.styled colour style s := Text.newline_not_mem_styled hs colour style
  cases e with
  | skipped => simp [line, hmark]
  | triggers c => simp [line, hmark, hshown, c.newline_not_mem_name]
  | misses c => simp [line, hmark, hshown, c.newline_not_mem_name]
  | nothing => simp [line, hmark, hshown]

/-- What a press comes to on bindings. Where a category is asked for, it is whether the press
triggers the category, and otherwise the category that dispatch leads to. -/
inductive OfPress (b : Bindings) (press : KeyPress) : Option Category → Effect → Prop
  | triggers {c} (h : b.matchesPress press c) : OfPress b press (some c) (.triggers c)
  | misses {c} (h : ¬ b.matchesPress press c) : OfPress b press (some c) (.misses c)
  | leads {c} (h : b.dispatch press Category.all = some c) : OfPress b press none (.triggers c)
  | nothing (h : b.dispatch press Category.all = none) : OfPress b press none .nothing

theorem exists_ofPress (b : Bindings) (press : KeyPress) (category? : Option Category) :
    ∃ e, OfPress b press category? e := by
  cases category? with
  | some c =>
    by_cases h : b.matchesPress press c
    · exact ⟨_, .triggers h⟩
    · exact ⟨_, .misses h⟩
  | none =>
    cases h : b.dispatch press Category.all with
    | some c => exact ⟨_, .leads h⟩
    | none => exact ⟨_, .nothing h⟩

theorem OfPress.pressLine_eq (h : OfPress b press category? e)
    (hshown : press.display = chord.display) (colour : Bool) :
    pressLine colour b category? press = e.line colour chord := by
  cases h with
  | triggers h => simp [pressLine, line, hshown, h]
  | misses h => simp [pressLine, line, hshown, h]
  | leads h => simp [pressLine, line, hshown, h]
  | nothing h => simp [pressLine, line, hshown, h]

/-- The line that is printed for a press tells what the press comes to. -/
theorem pressLine_eq_line_iff (hshown : press.display = chord.display) :
    pressLine colour b category? press = e.line colour chord ↔ OfPress b press category? e := by
  constructor
  · intro h
    obtain ⟨e', he'⟩ := exists_ofPress b press category?
    rw [he'.pressLine_eq hshown colour] at h
    rwa [← line_injective colour chord h]
  · intro h
    exact h.pressLine_eq hshown colour

end Effect

/-! ## Chords of categories -/

def shownChords (colour : Bool) : ChordList → Text
  | [] => Text.styled colour .dim "(not bound, shell default)".toList
  | chords@(_ :: _) =>
    Text.styled colour .green (Text.join ", ".toList (chords.map Chord.display))

def chordsLine (colour : Bool) (c : Category) (chords : ChordList) : Text :=
  Text.styled colour .boldCyan c.name ++ " → ".toList ++ shownChords colour chords

/-- The line tells that these are the chords of the category: of all categories and all chords that
patterns stand for, these alone have the line. -/
def TellsChords (colour : Bool) (b : Bindings) (c : Category) (line : Text) : Prop :=
  ∀ d chords, (∀ chord ∈ chords, Chord.IsReadable chord ∧ chord.isConfigured) →
    (line = chordsLine colour d chords ↔ d = c ∧ chords = b.get c)

/-- No chords that patterns stand for are shown like the want of any. -/
theorem display_ne_notBound {chords : ChordList}
    (h : ∀ chord ∈ chords, chord.IsReadable ∧ chord.isConfigured) :
    chords.display ≠ "(not bound, shell default)".toList := by
  intro heq
  cases chords with
  | nil => simp [ChordList.display, Text.join] at heq
  | cons chord chords =>
    have hspace := Chord.space_not_mem_display (h chord List.mem_cons_self).1
    cases chords with
    | nil =>
      rw [ChordList.display, Text.join, List.map_singleton, List.intercalate_singleton] at heq
      rw [heq] at hspace
      exact hspace (by decide)
    | cons other chords =>
      have hfirst : (chord.display ++ [',']) ++ ' ' :: ChordList.display (other :: chords) =
          "(not".toList ++ ' ' :: "bound, shell default)".toList := by
        rw [ChordList.display, List.map_cons, List.map_cons, Text.join_cons_cons] at heq
        simpa [ChordList.display] using heq
      have hfront := (Text.eq_and_eq_of_append_cons (by simp [hspace]) (by decide) hfirst).1
      have hlast := congrArg List.getLast? hfront
      rw [List.getLast?_concat] at hlast
      revert hlast
      decide

theorem shownChords_nil_ne {chord : Chord} {chords : ChordList}
    (h : ∀ other ∈ chord :: chords, other.IsReadable ∧ other.isConfigured) :
    shownChords colour [] ≠ shownChords colour (chord :: chords) := by
  intro heq
  cases colour with
  | false => exact display_ne_notBound h heq.symm
  | true => simp [shownChords, Text.styled, Text.Style.parameters] at heq

theorem shownChords_inj {chords others : ChordList}
    (hchords : ∀ chord ∈ chords, chord.IsReadable ∧ chord.isConfigured)
    (hothers : ∀ chord ∈ others, chord.IsReadable ∧ chord.isConfigured)
    (h : shownChords colour chords = shownChords colour others) : chords = others := by
  cases chords with
  | nil =>
    cases others with
    | nil => rfl
    | cons other others => exact absurd h (shownChords_nil_ne hothers)
  | cons chord chords =>
    cases others with
    | nil => exact absurd h.symm (shownChords_nil_ne hchords)
    | cons other others =>
      exact ChordList.display_inj hchords hothers (Text.styled_injective colour .green h)

theorem chordsLine_inj {c d : Category} {chords others : ChordList}
    (hchords : ∀ chord ∈ chords, chord.IsReadable ∧ chord.isConfigured)
    (hothers : ∀ chord ∈ others, chord.IsReadable ∧ chord.isConfigured)
    (h : chordsLine colour c chords = chordsLine colour d others) : c = d ∧ chords = others := by
  have hname (c : Category) : ' ' ∉ Text.styled colour .boldCyan c.name :=
    Text.not_mem_styled (.inl rfl) c.name_ne_nil_and_space_not_mem.2 colour .boldCyan
  obtain ⟨hfront, hrest⟩ := Text.eq_and_eq_of_append_arrow (hname c) (hname d) h
  exact ⟨Category.name_injective (Text.styled_injective colour .boldCyan hfront),
    shownChords_inj hchords hothers hrest⟩

theorem tellsChords_listLine (hb : b.WellFormed) (colour : Bool) (c : Category) :
    TellsChords colour b c (listLine colour (c, b.get c)) := by
  have hline : listLine colour (c, b.get c) = chordsLine colour c (b.get c) := by
    rw [listLine, chordsLine]
    cases b.get c <;> rfl
  intro d chords hchords
  rw [hline]
  constructor
  · intro h
    obtain ⟨rfl, hget⟩ := chordsLine_inj (hb c) hchords h
    exact ⟨rfl, hget.symm⟩
  · rintro ⟨rfl, rfl⟩
    rfl

theorem TellsChords.eq_chordsLine (hb : b.WellFormed) {c : Category} {line : Text}
    (h : TellsChords colour b c line) : line = chordsLine colour c (b.get c) :=
  (h c (b.get c) (hb c)).2 ⟨rfl, rfl⟩

theorem newline_not_mem_chordsLine (c : Category) {chords : ChordList}
    (h : ∀ chord ∈ chords, chord.IsReadable ∧ chord.isConfigured) :
    '\n' ∉ chordsLine colour c chords := by
  have hname := Text.newline_not_mem_styled c.newline_not_mem_name colour .boldCyan
  have hshown : '\n' ∉ shownChords colour chords := by
    cases chords with
    | nil => exact Text.newline_not_mem_styled (by decide) colour .dim
    | cons chord chords =>
      refine Text.newline_not_mem_styled (Text.newline_not_mem_join (by decide) ?_) colour .green
      intro t ht
      obtain ⟨other, hother, rfl⟩ := List.mem_map.1 ht
      exact Chord.newline_not_mem_display (h other hother).1
  simp [chordsLine, hname, hshown]

/-! ## Chords of several categories -/

def clashLine (colour : Bool) (chord : Chord) (categories : List Category) : Text :=
  "  ".toList ++ Text.styled colour .boldCyan chord.display ++ " → ".toList ++
    Text.join ", ".toList (categories.map Category.name)

/-- The line tells the chord and the categories of the conflict: of all chords that patterns stand
for and all lists of categories, these alone have the line. -/
def TellsConflict (colour : Bool) (conflict : Conflict) (line : Text) : Prop :=
  ∀ chord categories, Chord.IsReadable chord →
    (line = clashLine colour chord categories ↔ ⟨chord, categories⟩ = conflict)

theorem clashLine_inj {chord other : Chord} {categories others : List Category}
    (hchord : chord.IsReadable) (hother : other.IsReadable)
    (h : clashLine colour chord categories = clashLine colour other others) :
    chord = other ∧ categories = others := by
  have hshown {chord : Chord} (hchord : chord.IsReadable) :
      ' ' ∉ Text.styled colour .boldCyan chord.display :=
    Text.not_mem_styled (.inl rfl) (Chord.space_not_mem_display hchord) colour .boldCyan
  have hnames (cs : List Category) : ∀ t ∈ cs.map Category.name, t ≠ [] ∧ ' ' ∉ t := by
    intro t ht
    obtain ⟨c, -, rfl⟩ := List.mem_map.1 ht
    exact c.name_ne_nil_and_space_not_mem
  simp only [clashLine, List.append_assoc] at h
  rw [← List.append_assoc (Text.styled _ _ _), ← List.append_assoc (Text.styled _ _ _)] at h
  obtain ⟨hfront, hrest⟩ :=
    Text.eq_and_eq_of_append_arrow (hshown hchord) (hshown hother) (List.append_cancel_left h)
  refine ⟨Pattern.display_injOn hchord hother (Text.styled_injective colour .boldCyan hfront), ?_⟩
  apply List.map_injective_iff.2 Category.name_injective
  exact Text.join_inj (by decide : ' ' ∉ [',']) (hnames categories) (hnames others) hrest

theorem tellsConflict_conflictLine {conflict : Conflict} (h : conflict.chord.IsReadable)
    (colour : Bool) : TellsConflict colour conflict (conflictLine colour conflict) := by
  have hline : conflictLine colour conflict =
      clashLine colour conflict.chord conflict.categories := rfl
  intro chord categories hchord
  rw [hline]
  constructor
  · intro heq
    obtain ⟨rfl, rfl⟩ := clashLine_inj h hchord heq
    rfl
  · rintro rfl
    rfl

theorem newline_not_mem_conflictLine {conflict : Conflict} (h : conflict.chord.IsReadable) :
    '\n' ∉ conflictLine colour conflict := by
  have hshown := Text.newline_not_mem_styled (Chord.newline_not_mem_display h) colour .boldCyan
  have hnames : '\n' ∉ Text.join [',', ' '] (conflict.categories.map Category.name) := by
    apply Text.newline_not_mem_join (by decide)
    intro t ht
    obtain ⟨c, -, rfl⟩ := List.mem_map.1 ht
    exact c.newline_not_mem_name
  simp [conflictLine, hshown, hnames]

/-! ## Checks -/

def validLine (colour : Bool) : Text :=
  Text.styled colour .boldGreen "✓".toList ++
    ' ' :: Text.styled colour .bold "Key bindings are valid".toList

def clearLine (colour : Bool) : Text :=
  Text.styled colour .green "✓".toList ++ " No chord is bound to more than one action".toList

def countLine (colour : Bool) (n : Nat) : Text :=
  Text.styled colour .boldYellow "⚠".toList ++ ' ' :: Text.ofNat n ++
    (if n = 1 then " chord" else " chords").toList ++ " bound to several actions:".toList

def orderLine (colour : Bool) : Text :=
  Text.styled colour .yellow
    "The first matching action in dispatch order wins for these chords.".toList

/-- The lines of a check tell that the bindings are valid, and which chords several categories bind
or that there are none. -/
inductive TellsCheck (colour : Bool) (b : Bindings) : List Text → Prop
  | clear (h : b.conflicts = []) : TellsCheck colour b [validLine colour, clearLine colour]
  | clashes {lines} (h : b.conflicts ≠ [])
      (hlines : List.Forall₂ (TellsConflict colour) b.conflicts lines) :
      TellsCheck colour b
        ([validLine colour, [], countLine colour b.conflicts.length, []] ++ lines ++
          [[], orderLine colour])

theorem isReadable_of_mem_conflicts (hb : b.WellFormed) {conflict : Conflict}
    (h : conflict ∈ b.conflicts) : conflict.chord.IsReadable := by
  obtain ⟨c, hc⟩ := Bindings.exists_mem_get_of_mem_conflicts h
  exact (hb c conflict.chord hc).1

theorem tellsCheck_checkLines (hb : b.WellFormed) (colour : Bool) :
    TellsCheck colour b (checkLines colour b) := by
  by_cases h : b.conflicts = []
  · have hlines : checkLines colour b = [validLine colour, clearLine colour] := by
      simp [checkLines, h, validLine, clearLine]
    rw [hlines]
    exact .clear h
  · have hlines : checkLines colour b =
        [validLine colour, [], countLine colour b.conflicts.length, []] ++
          b.conflicts.map (conflictLine colour) ++ [[], orderLine colour] := by
      simp [checkLines, h, validLine, countLine, orderLine]
    rw [hlines]
    refine .clashes h ?_
    rw [List.forall₂_map_right_iff, List.forall₂_same]
    intro conflict hconflict
    exact tellsConflict_conflictLine (isReadable_of_mem_conflicts hb hconflict) colour

theorem newline_not_mem_of_mem_checkLines (hb : b.WellFormed) {line : Text}
    (h : line ∈ checkLines colour b) : '\n' ∉ line := by
  have hmark {s : Text} (hs : '\n' ∉ s) (style : Text.Style) :
      '\n' ∉ Text.styled colour style s := Text.newline_not_mem_styled hs colour style
  have hcount : '\n' ∉ (if b.conflicts.length = 1 then " chord" else " chords").toList := by
    split <;> decide
  simp only [checkLines] at h
  split at h
  · rcases List.mem_pair.1 h with rfl | rfl <;> simp [hmark]
  · simp only [List.mem_append, List.mem_cons, List.mem_map, List.not_mem_nil, or_false] at h
    rcases h with ((rfl | rfl | rfl | rfl) | ⟨conflict, hconflict, rfl⟩) | rfl | rfl
    · simp [hmark]
    · simp
    · simp [hmark, hcount, Text.newline_not_mem_ofNat]
    · simp
    · exact newline_not_mem_conflictLine (isReadable_of_mem_conflicts hb hconflict)
    · simp
    · exact hmark (by decide) .yellow

end Command

end Keymap

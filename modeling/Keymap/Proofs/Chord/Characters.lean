import Keymap.Proofs.Chord.Matching

/-! # Characters that can be bound

A character that is typed without Control and Alt triggers the literal of itself, and
where it is a letter or the space also the key. Main statement: such a character can be
bound unless it is the plus sign, which stands between the parts of a pattern, or white
space other than the space.
-/
namespace Keymap

namespace KeyPress

/-- Some pattern stands for a chord that the press triggers. -/
def IsBindable (press : KeyPress) : Prop :=
  ∃ pattern chord, Pattern.chord pattern = .ok chord ∧ chord.matchesPress press

theorem isBindable_iff {press : KeyPress} :
    press.IsBindable ↔ ∃ chord : Chord, chord.IsReadable ∧ chord.matchesPress press := by
  simp only [IsBindable, ← Pattern.exists_chord_eq_iff_isReadable]
  constructor
  · rintro ⟨pattern, chord, hpattern, hpress⟩
    exact ⟨chord, ⟨pattern, hpattern⟩, hpress⟩
  · rintro ⟨chord, ⟨pattern, hpattern⟩, hpress⟩
    exact ⟨pattern, chord, hpattern, hpress⟩

end KeyPress

namespace TerminalPress

variable {c : Char} {ms : Modifiers}

theorem key?_ofChar_of_isAlpha (h : c.isAlpha = true) (ms : Modifiers) :
    (ofChar c ms).key? = some (.letter c.toUpper) := by
  have hspace : c ≠ ' ' := by
    rintro rfl
    cases h
  simp [ofChar, Key.ofLetter?, hspace, h]

/-- The named key of a typed character is the space bar or a letter. -/
theorem eq_space_or_isAlpha_of_key? {k : Key} (h : (ofChar c ms).key? = some k) :
    c = ' ' ∨ c.isAlpha = true :=
  isCoherent_ofChar c ms k c h rfl

theorem matchesPress_literal_ofChar (hcontrol : ms.control = false) (halt : ms.alt = false) :
    (Chord.literal c).matchesPress (ofChar c ms) := by
  simp [Chord.matchesPress, ofChar, hcontrol, halt]

/-- A typed character can be bound to the space bar, to the key of a letter or to itself. -/
theorem isBindable_ofChar_iff (hcontrol : ms.control = false) (halt : ms.alt = false) :
    (ofChar c ms).IsBindable ↔ c = ' ' ∨ ¬ Text.isBlank c ∧ c ≠ '+' := by
  rw [KeyPress.isBindable_iff]
  constructor
  · rintro ⟨chord, hread, hpress⟩
    cases chord with
    | unconfigured => cases hpress
    | named k held =>
      have hkey := (Chord.matchesPress_named.1 hpress).1
      apply (eq_space_or_isAlpha_of_key? hkey).imp_right
      intro halpha
      have halphanum : c.isAlphanum = true := by simp [Char.isAlphanum, halpha]
      refine ⟨Text.not_isBlank_of_isAlphanum halphanum, ?_⟩
      rintro rfl
      cases halpha
    | literal d =>
      obtain rfl : c = d := Option.some.inj (Chord.char?_of_matchesPress_literal hpress)
      exact Or.inr ⟨hread.1, hread.2.1⟩
  · intro h
    by_cases halpha : c.isAlpha = true
    · refine ⟨.named (.letter c.toUpper) ms, ?_, ?_⟩
      · simp [Chord.IsReadable, Key.isNamed, Char.isUpper_toUpper_eq_isAlpha, halpha]
      · exact Chord.matchesPress_named.2 ⟨key?_ofChar_of_isAlpha halpha ms, rfl⟩
    · rcases h with rfl | ⟨hblank, hplus⟩
      · exact ⟨.named .space ms, rfl, Chord.matchesPress_named.2 ⟨rfl, rfl⟩⟩
      · refine ⟨.literal c, ⟨hblank, hplus, by simpa using halpha⟩, ?_⟩
        exact matchesPress_literal_ofChar hcontrol halt

theorem keyPress?_char {report : TerminalPress} (hkey : report.key = .char c)
    (hkind : report.kind ≠ .release) :
    report.keyPress? = some (ofChar c report.modifiers.modifiers) := by
  obtain ⟨key, held, kind⟩ := report
  subst hkey
  cases kind with
  | release => exact absurd rfl hkind
  | press | repeated => rfl

/-- A character that a terminal reports without Control and Alt can be bound unless it is the plus
sign or white space other than the space. -/
theorem exists_isBindable_iff {report : TerminalPress} (hkey : report.key = .char c)
    (hkind : report.kind ≠ .release) (hcontrol : report.modifiers.control = false)
    (halt : report.modifiers.alt = false) :
    ∃ press, report.keyPress? = some press ∧
      (press.IsBindable ↔ c = ' ' ∨ ¬ Text.isBlank c ∧ c ≠ '+') :=
  ⟨_, keyPress?_char hkey hkind, isBindable_ofChar_iff hcontrol halt⟩

/-- A ligature can be bound, and the modifiers that no chord asks for make no difference. -/
theorem exists_isBindable_ligature :
    let report : TerminalPress := ⟨.char 'ﬁ', { shift := true, superKey := true }, .repeated⟩
    ∃ press, report.keyPress? = some press ∧ press.IsBindable := by
  intro report
  obtain ⟨press, hpress, hbindable⟩ :=
    @exists_isBindable_iff 'ﬁ' report rfl (by decide) rfl rfl
  exact ⟨press, hpress, hbindable.2 (by decide)⟩

/-- The plus sign is neither white space nor a letter and cannot be bound; as a pattern it consists
of two empty parts. -/
theorem not_isBindable_plus :
    ¬ Text.isBlank '+' ∧ '+'.isAlpha = false ∧
      Pattern.chord ['+'] = .error (.unrecognized []) ∧
      ∃ press, ({ key := .char '+' } : TerminalPress).keyPress? = some press ∧
        ¬ press.IsBindable := by
  refine ⟨by decide, by decide, by decide +kernel, _, rfl, ?_⟩
  rw [isBindable_ofChar_iff rfl rfl]
  decide

end TerminalPress

end Keymap

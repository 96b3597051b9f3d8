import Keymap.Proofs.Command.Lines

/-! # Chords typed at a terminal

A terminal reports more than the press that a chord describes: a letter or a space comes
with its character. Main statement: every chord that a pattern stands for can be typed,
and on assembled bindings what is typed has the same effect as the press described.
-/
namespace Keymap

namespace TerminalModifiers

def ofModifiers (ms : Modifiers) : TerminalModifiers :=
  { shift := ms.shift, control := ms.control, alt := ms.alt }

@[simp] theorem modifiers_ofModifiers (ms : Modifiers) : (ofModifiers ms).modifiers = ms := rfl

end TerminalModifiers

def TerminalKey.ofKey : Key → TerminalKey
  | .enter => .enter
  | .tab => .tab
  | .space => .char ' '
  | .escape => .escape
  | .backspace => .backspace
  | .delete => .delete
  | .insert => .insert
  | .home => .home
  | .endKey => .endKey
  | .pageUp => .pageUp
  | .pageDown => .pageDown
  | .up => .up
  | .down => .down
  | .left => .left
  | .right => .right
  | .function n => .function n
  | .letter c => .char c

namespace TerminalPress

/-- What a terminal reports when the chord is typed. Letters come in either case, and a tab with
Shift can come as a key of its own. -/
inductive Types : TerminalPress → Chord → Prop
  | key {k : Key} {held : TerminalModifiers} :
      Types ⟨.ofKey k, held, .press⟩ (.named k held.modifiers)
  | smallLetter {c : Char} {held : TerminalModifiers} :
      Types ⟨.char c.toLower, held, .press⟩ (.named (.letter c) held.modifiers)
  | backTab {held : TerminalModifiers} (hshift : held.shift = true) :
      Types ⟨.backTab, held, .press⟩ (.named .tab held.modifiers)
  | literal {c : Char} {held : TerminalModifiers} (hheld : held.modifiers = {}) :
      Types ⟨.char c, held, .press⟩ (.literal c)

/-- Every chord but the unconfigured one can be typed. -/
theorem exists_types {c : Chord} (h : c.isConfigured) :
    ∃ report : TerminalPress, report.Types c := by
  cases c with
  | unconfigured => cases h
  | named k ms =>
    rw [← TerminalModifiers.modifiers_ofModifiers ms]
    exact ⟨_, .key⟩
  | literal c =>
    have hheld : TerminalModifiers.modifiers {} = {} := rfl
    exact ⟨_, .literal hheld⟩

end TerminalPress

namespace KeyPress

structure Extends (typed press : KeyPress) : Prop where
  modifiers : typed.modifiers = press.modifiers
  key? : typed.key? = press.key?
  char? : press.key? = none → typed.char? = press.char?

theorem Extends.refl (press : KeyPress) : press.Extends press := ⟨rfl, rfl, fun _ => rfl⟩

/-- A press is shown by its key, and by its character only where it has no key. -/
theorem Extends.display_eq {typed press : KeyPress} (h : typed.Extends press) :
    typed.display = press.display := by
  rw [display, display, h.modifiers, h.key?]
  cases hk : press.key? with
  | some k => rfl
  | none => rw [h.char? hk]

end KeyPress

namespace TerminalPress

theorem extends_letter {c d : Char} (hd : Key.ofLetter? d = some (.letter c)) (ms : Modifiers) :
    (ofChar d ms).Extends (.ofKey (.letter c) ms) := by
  have hspace : d ≠ ' ' := by
    rintro rfl
    cases hd
  constructor <;> simp [ofChar, KeyPress.ofKey, hspace, hd]

/-- What is typed for a chord is the press that it describes, with a character at most besides. -/
theorem Types.exists_keyPress? {report : TerminalPress} {c : Chord} (h : report.Types c)
    (hc : c.IsReadable) : ∃ typed press, report.keyPress? = some typed ∧ c.press? = some press ∧
      typed.Extends press := by
  cases h with
  | @key k held =>
    cases k with
    | letter c => exact ⟨_, _, rfl, rfl, extends_letter (Key.ofLetter?_of_isUpper hc) _⟩
    | space => exact ⟨_, _, rfl, rfl, rfl, rfl, fun h => by cases h⟩
    | function n =>
      have hn : 1 ≤ n ∧ n ≤ 24 := by simpa [Chord.IsReadable, Key.isNamed] using hc
      have hkey : namedKey? (.function n) = some (.function n) := if_pos hn
      refine ⟨_, _, ?_, rfl, .refl _⟩
      simp [TerminalKey.ofKey, keyPress?, hkey]
    | _ => exact ⟨_, _, rfl, rfl, .refl _⟩
  | @smallLetter c held =>
    have hletter : Key.ofLetter? c.toLower = some (.letter c) := by
      rw [Key.ofLetter?_toLower, Key.ofLetter?_of_isUpper hc]
    exact ⟨_, _, rfl, rfl, extends_letter hletter _⟩
  | @backTab held hshift =>
    have hinsert : held.modifiers.insert .shift = held.modifiers := by
      simp [Modifiers.insert, TerminalModifiers.modifiers, hshift]
    refine ⟨_, _, rfl, rfl, ?_⟩
    rw [hinsert]
    exact .refl _
  | @literal c held hheld =>
    obtain ⟨hblank, -, halpha⟩ := hc
    have hspace : c ≠ ' ' := by
      rintro rfl
      exact hblank (by decide)
    refine ⟨_, _, rfl, rfl, ?_⟩
    constructor <;> simp [ofChar, KeyPress.ofChar, hheld, hspace, Key.ofLetter?, halpha]

end TerminalPress

namespace Chord

variable {c d : Chord} {typed press : KeyPress}

theorem matchesPress_of_extends (hpress : c.press? = some press) (h : typed.Extends press) :
    c.matchesPress typed := by
  cases c with
  | unconfigured => cases hpress
  | named k ms =>
    obtain rfl := Option.some.inj hpress
    exact matchesPress_named.2 ⟨h.key?, h.modifiers⟩
  | literal x =>
    obtain rfl := Option.some.inj hpress
    simp [matchesPress, h.modifiers, h.char? rfl, KeyPress.ofChar]

/-- Of the chords that patterns stand for, what is typed triggers the same one as the press
described. -/
theorem matchesPress_typed_eq (hc : c.IsReadable) (hpress : c.press? = some press)
    (h : typed.Extends press) (htyped : typed.IsCoherent) (hd : d.IsReadable) :
    d.matchesPress typed = d.matchesPress press := by
  have hmatch := matchesPress_of_extends hpress h
  rw [Bool.eq_iff_iff, matchesPress_press?_iff hpress]
  constructor
  · intro hdt
    exact eq_of_matchesPress hd hc htyped hdt hmatch
  · rintro rfl
    exact hmatch

end Chord

namespace Bindings

/-- The two presses trigger the same chords of each category, the same categories, and lead to the
same category in every order of dispatch. -/
structure Agree (b : Bindings) (typed press : KeyPress) : Prop where
  matchesPress : ∀ k, b.matchesPress typed k = b.matchesPress press k
  find? : ∀ k, ChordList.find? (b.get k) typed = ChordList.find? (b.get k) press
  dispatch : ∀ priority, b.dispatch typed priority = b.dispatch press priority

theorem agree_of_chords {b : Bindings} {typed press : KeyPress}
    (h : ∀ k, ∀ chord ∈ b.get k, chord.matchesPress typed = chord.matchesPress press) :
    b.Agree typed press := by
  have hmatches (k : Category) : b.matchesPress typed k = b.matchesPress press k := by
    rw [Bool.eq_iff_iff, matchesPress_iff, matchesPress_iff]
    apply exists_congr
    intro chord
    apply and_congr_right
    intro hmem
    rw [h k chord hmem]
  refine ⟨hmatches, fun k => List.find?_congr (h k), ?_⟩
  intro priority
  exact List.find?_congr fun k _ => hmatches k

end Bindings

namespace Command

variable {b : Bindings} {typed press : KeyPress}

theorem pressLine_eq (h : b.Agree typed press) (hshown : typed.display = press.display)
    (colour : Bool) (k? : Option Category) :
    pressLine colour b k? press = pressLine colour b k? typed := by
  cases k? with
  | none => simp [pressLine, h.dispatch, hshown]
  | some k => simp [pressLine, h.matchesPress, hshown]

/-- A key that is tried alone gets one line, which tells what a press comes to that the bindings
cannot tell from that of its chord. -/
theorem exists_testReport_singleton {s : Text} {c : Chord} (hs : Pattern.chord s = .ok c)
    (hpress : c.press? = some press) (h : b.Agree typed press)
    (hshown : typed.display = press.display) (colour : Bool) (k? : Option Category) :
    ∃ line, testReport colour b k? [s] = { lines := [line] } ∧
      ∀ e : Effect, line = e.line colour c ↔ Effect.OfPress b typed k? e := by
  refine ⟨pressLine colour b k? typed, ?_, ?_⟩
  · simp [testReport, hs, chordLine, hpress, Report.prepend, pressLine_eq h hshown]
  · intro e
    exact Effect.pressLine_eq_line_iff (hshown.trans (Chord.display_of_press? hpress))

end Command

namespace Bindings

/-- Whoever types a chord that a pattern stands for gets what the press of the chord stands for. The
chord can be typed, and each way to type it is a press; on assembled bindings this press triggers
the same chords and categories as the one that the chord describes, which are the categories that
bind the chord. The command for trying keys reports on the press that is typed: the one line that it
prints for the pattern tells what this press comes to, and nothing else. -/
theorem agree_of_types {s : Text} {c : Chord} (hs : Pattern.chord s = .ok c)
    (hc : c.isConfigured) :
    (∃ report : TerminalPress, report.Types c) ∧
      ∃ press, c.press? = some press ∧
        ∀ report : TerminalPress, report.Types c → ∃ typed, report.keyPress? = some typed ∧
          ∀ b : Bindings, b.Assembled → b.Agree typed press ∧
            (∀ k, b.matchesPress typed k ↔ c ∈ b.get k) ∧
            ∀ colour k?, ∃ line, Command.testReport colour b k? [s] = { lines := [line] } ∧
              ∀ e : Command.Effect,
                line = e.line colour c ↔ Command.Effect.OfPress b typed k? e := by
  have hread := Pattern.isReadable_of_chord hs
  obtain ⟨press, hpress⟩ := Chord.exists_press?_of_isConfigured hc
  refine ⟨TerminalPress.exists_types hc, press, hpress, ?_⟩
  intro report hreport
  obtain ⟨typed, press', htyped, hpress', hextends⟩ := hreport.exists_keyPress? hread
  obtain rfl := Option.some.inj (hpress.symm.trans hpress')
  refine ⟨typed, htyped, ?_⟩
  intro b hb
  have hcoherent := TerminalPress.isCoherent_of_keyPress? htyped
  have hagree : b.Agree typed press := by
    apply agree_of_chords
    intro k chord hchord
    exact Chord.matchesPress_typed_eq hread hpress hextends hcoherent
      (hb.wellFormed k chord hchord).1
  refine ⟨hagree, ?_, Command.exists_testReport_singleton hs hpress hagree hextends.display_eq⟩
  intro k
  rw [hagree.matchesPress, matchesPress_press?_iff hpress]

/-- A small j with Control opens the completion list, as the pattern with a capital letter says, and
so says the command that tries the pattern. -/
theorem agree_of_types_controlJ :
    Pattern.chord "Control+J".toList = .ok (.named (.letter 'J') { control := true }) ∧
      TerminalPress.Types ⟨.char 'j', { control := true }, .press⟩
        (.named (.letter 'J') { control := true }) ∧
      ∃ typed, TerminalPress.keyPress? ⟨.char 'j', { control := true }, .press⟩ = some typed ∧
        default.matchesPress typed .triggerCompletionList ∧
        Command.testReport false default (some .triggerCompletionList) ["Control+J".toList] =
          { lines := ["✓ Control+J → trigger-completion-list".toList] } := by
  have hs : Pattern.chord "Control+J".toList =
      .ok (.named (.letter 'J') { control := true }) := by
    decide +kernel
  have htypes : TerminalPress.Types ⟨.char 'j', { control := true }, .press⟩
      (.named (.letter 'J') { control := true }) :=
    @TerminalPress.Types.smallLetter 'J' { control := true }
  obtain ⟨-, press, -, hreports⟩ := agree_of_types hs rfl
  obtain ⟨typed, htyped, hagree⟩ := hreports _ htypes
  obtain ⟨-, hmatches, htests⟩ := hagree default .default
  have htriggers : default.matchesPress typed .triggerCompletionList :=
    (hmatches .triggerCompletionList).2 (by decide)
  obtain ⟨line, hreport, hline⟩ := htests false (some .triggerCompletionList)
  refine ⟨hs, htypes, typed, htyped, htriggers, ?_⟩
  rw [hreport, (hline (.triggers .triggerCompletionList)).2 (.triggers htriggers)]
  rfl

end Bindings

end Keymap

import Keymap.Proofs.Pattern.RoundTrip
import Keymap.Terminal

/-! # Which chords a press triggers

The press that a chord describes triggers that chord and no other. A press that
comes from a terminal can carry a key and a character at once, but triggers at
most one of the chords that patterns stand for.
-/
namespace Keymap

/-- A character typed with a named key is the space or a letter. -/
def KeyPress.IsCoherent (press : KeyPress) : Prop :=
  ∀ k c, press.key? = some k → press.char? = some c → c = ' ' ∨ c.isAlpha = true

namespace TerminalPress

theorem isCoherent_ofChar (c : Char) (ms : Modifiers) : (ofChar c ms).IsCoherent := by
  intro k d hk hd
  obtain rfl := Option.some.inj hd
  by_cases hspace : c = ' '
  · exact Or.inl hspace
  · right
    rw [ofChar] at hk
    dsimp only at hk
    rw [if_neg hspace, Key.ofLetter?] at hk
    by_contra hc
    rw [if_neg hc] at hk
    cases hk

theorem isCoherent_ofKey (k : Key) (ms : Modifiers) : (KeyPress.ofKey k ms).IsCoherent := by
  intro _ c _ hc
  rw [KeyPress.ofKey] at hc
  cases hc

/-- A report that gives a press gives that of a character or that of a key. -/
theorem keyPress?_cases {report : TerminalPress} {press : KeyPress}
    (h : report.keyPress? = some press) :
    (∃ c ms, press = ofChar c ms) ∨ ∃ k ms, press = .ofKey k ms := by
  obtain ⟨key, ms, kind⟩ := report
  cases kind with
  | release => cases h
  | press | repeated =>
    cases key with
    | char c => exact Or.inl ⟨c, _, (Option.some.inj h).symm⟩
    | backTab => exact Or.inr ⟨_, _, (Option.some.inj h).symm⟩
    | _ =>
      rw [keyPress?] at h
      obtain ⟨k, -, hk⟩ := Option.map_eq_some_iff.1 h
      exact Or.inr ⟨k, _, hk.symm⟩

theorem isCoherent_of_keyPress? {report : TerminalPress} {press : KeyPress}
    (h : report.keyPress? = some press) : press.IsCoherent := by
  rcases keyPress?_cases h with ⟨c, ms, rfl⟩ | ⟨k, ms, rfl⟩
  · exact isCoherent_ofChar c ms
  · exact isCoherent_ofKey k ms
end TerminalPress

namespace Chord

theorem matchesPress_named {k : Key} {ms : Modifiers} {press : KeyPress} :
    (named k ms).matchesPress press ↔ press.key? = some k ∧ press.modifiers = ms := by
  rw [matchesPress, Bool.and_eq_true, beq_iff_eq, beq_iff_eq]

theorem char?_of_matchesPress_literal {c : Char} {press : KeyPress}
    (h : (literal c).matchesPress press) : press.char? = some c := by
  rw [matchesPress, Bool.and_eq_true, Bool.and_eq_true, beq_iff_eq] at h
  exact h.1.1

/-- The press that a chord describes triggers this chord and no other. -/
theorem matchesPress_press?_iff {c d : Chord} {press : KeyPress} (h : d.press? = some press) :
    c.matchesPress press ↔ c = d := by
  cases d with
  | unconfigured => cases h
  | named k ms =>
    obtain rfl := Option.some.inj h
    cases c with
    | unconfigured => simp [matchesPress]
    | named k' ms' =>
      rw [matchesPress_named, KeyPress.ofKey, named.injEq, Option.some.injEq]
      exact and_congr eq_comm eq_comm
    | literal x => simp [matchesPress, KeyPress.ofKey]
  | literal x =>
    obtain rfl := Option.some.inj h
    cases c with
    | unconfigured => simp [matchesPress]
    | named k ms => simp [matchesPress, KeyPress.ofChar]
    | literal y =>
      have hxy : x = y ↔ y = x := eq_comm
      simp [matchesPress, KeyPress.ofChar, hxy]

theorem exists_press?_of_isConfigured {c : Chord} (h : c.isConfigured) :
    ∃ press, c.press? = some press := by
  cases c with
  | unconfigured => cases h
  | named k ms => exact ⟨_, rfl⟩
  | literal c => exact ⟨_, rfl⟩

/-- No literal that a pattern stands for is typed with a named key. -/
theorem key?_eq_none_of_matchesPress_literal {c : Char} {press : KeyPress}
    (hc : (literal c).IsReadable) (hp : press.IsCoherent) (h : (literal c).matchesPress press) :
    press.key? = none := by
  obtain ⟨hblank, -, halpha⟩ := hc
  cases hk : press.key? with
  | none => rfl
  | some k =>
    rcases hp k c hk (char?_of_matchesPress_literal h) with rfl | hletter
    · exact absurd (by decide) hblank
    · rw [hletter] at halpha
      cases halpha

/-- Of the chords that patterns stand for, a press from a terminal triggers at most one. -/
theorem eq_of_matchesPress {c d : Chord} {press : KeyPress} (hc : c.IsReadable)
    (hd : d.IsReadable) (hp : press.IsCoherent) (hcp : c.matchesPress press)
    (hdp : d.matchesPress press) : c = d := by
  cases c with
  | unconfigured => cases hcp
  | named k ms =>
    obtain ⟨hk, hms⟩ := matchesPress_named.1 hcp
    cases d with
    | unconfigured => cases hdp
    | named k' ms' =>
      obtain ⟨hk', hms'⟩ := matchesPress_named.1 hdp
      rw [hk] at hk'
      rw [Option.some.inj hk', ← hms, hms']
    | literal c =>
      rw [key?_eq_none_of_matchesPress_literal hd hp hdp] at hk
      cases hk
  | literal c =>
    cases d with
    | unconfigured => cases hdp
    | named k ms =>
      have hk := (matchesPress_named.1 hdp).1
      rw [key?_eq_none_of_matchesPress_literal hc hp hcp] at hk
      cases hk
    | literal c' =>
      have hchar := char?_of_matchesPress_literal hcp
      rw [char?_of_matchesPress_literal hdp] at hchar
      rw [Option.some.inj hchar]

end Chord

end Keymap

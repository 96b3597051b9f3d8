import Keymap.Proofs.Active.Runs
import Keymap.Proofs.Bindings.Patterns

/-! # What the bindings in use are made of

Keys and characters can be any in a chord as such, and bindings as such can be empty. Main
statement: whatever is done with the active bindings, the chords in use are of the kinds that
patterns and defaults give, and a completion can be asked for and committed.
-/
namespace Keymap

structure Chord.Regular (chord : Chord) : Prop where
  configured : chord.isConfigured
  /-- ASCII letters are keys, and white space and plus signs are no part of a pattern. -/
  literal : ∀ c, chord = .literal c →
    chord.modifiers = Modifiers.none ∧ ¬ Text.isBlank c ∧ c ≠ '+' ∧ c.isAlpha = false
  /-- Only the letters A to Z are upper case here. -/
  letter : ∀ c ms, chord = .named (.letter c) ms → c.isUpper
  function : ∀ n ms, chord = .named (.function n) ms → 1 ≤ n ∧ n ≤ 24

theorem Chord.IsReadable.regular {chord : Chord} (h : chord.IsReadable)
    (hconfigured : chord.isConfigured) : chord.Regular := by
  refine ⟨hconfigured, ?_, ?_, ?_⟩
  · rintro c rfl
    exact ⟨rfl, h⟩
  · rintro c ms rfl
    exact h
  · rintro n ms rfl
    simpa [IsReadable, Key.isNamed] using h

namespace Bindings

structure Regular (b : Bindings) : Prop where
  chord : ∀ c, ∀ chord ∈ b.get c, chord.Regular
  commitCompletion : b.get .commitCompletion ≠ []
  triggerCompletionList : b.get .triggerCompletionList ≠ []

theorem Assembled.get_ne_nil {b : Bindings} (h : b.Assembled) {c : Category}
    (hdefault : defaultChords c ≠ []) : b.get c ≠ [] :=
  fun hnil => hdefault (h.defaultChords_eq_nil hnil)

theorem Assembled.regular {b : Bindings} (h : b.Assembled) : b.Regular := by
  refine ⟨?_, h.get_ne_nil (List.cons_ne_nil _ _), h.get_ne_nil (List.cons_ne_nil _ _)⟩
  intro c chord hc
  obtain ⟨hreadable, hconfigured⟩ := h.wellFormed c chord hc
  exact hreadable.regular hconfigured

end Bindings

namespace Active.History

/-- The bindings that a caller can come by: the built-in ones, those built from a configuration, and
those of a snapshot that has been in use. -/
inductive Available (h : History) : Bindings → Prop
  | assembled {b} (hb : b.Assembled) : Available h b
  | used {s} (hs : s ∈ h.used) : Available h s.bindings

/-- The histories that operations lead to, in any order, whatever is in the files that they read. -/
inductive Reachable : History → Prop
  | start {b} (hb : b.Assembled) : Reachable (start b)
  | next {h op} (hr : Reachable h) (hop : ∀ b, op = .replace b → Available h b) :
      Reachable (h.next op)

theorem Reachable.sound {h : History} (hr : h.Reachable) : h.Sound := by
  induction hr with
  | start _ => exact sound_start _
  | next _ _ ih => exact ih.next _

theorem Reachable.run {h : History} (hr : h.Reachable) {ops : List Operation}
    (hops : ∀ b, .replace b ∈ ops → b.Assembled) : (h.run ops).Reachable := by
  induction ops generalizing h with
  | nil => exact hr
  | cons op ops ih =>
    refine ih (.next hr ?_) ?_
    · rintro b rfl
      exact .assembled (hops b List.mem_cons_self)
    · intro b hb
      exact hops b (List.mem_cons_of_mem op hb)

theorem Available.assembled_of_used {h : History} {b : Bindings} (hb : Available h b)
    (hused : ∀ s ∈ h.used, s.bindings.Assembled) : b.Assembled := by
  cases hb with
  | assembled hb => exact hb
  | used hs => exact hused _ hs

/-- An operation puts in use nothing but assembled bindings. -/
theorem Sound.assembled_next {h : History} (hs : h.Sound)
    (hused : ∀ s ∈ h.used, s.bindings.Assembled) {op : Operation}
    (hop : ∀ b, op = .replace b → Available h b) :
    ∀ s ∈ (h.next op).used, s.bindings.Assembled := by
  have hcurrent : h.active.current.bindings.Assembled := hused _ hs.current_mem
  have hnext : (op.perform h.active).2.current.bindings.Assembled := by
    have hturn := hs.turn op
    generalize (op.perform h.active).1 = answer at hturn
    generalize (op.perform h.active).2.current = after at hturn
    cases hturn with
    | refused => exact hcurrent
    | reloaded hbuilt =>
      obtain ⟨config, -, hb⟩ := hbuilt
      exact .built hb
    | replaced => exact (hop after.bindings rfl).assembled_of_used hused
    | asked => exact hcurrent
    | matched => exact hcurrent
  intro s hmem
  rcases List.mem_cons.1 hmem with rfl | hmem
  · exact hnext
  · exact hused s hmem

theorem Reachable.assembled {h : History} (hr : h.Reachable) :
    ∀ s ∈ h.used, s.bindings.Assembled := by
  induction hr with
  | start hb =>
    intro s hs
    rw [List.mem_singleton.1 hs]
    exact hb
  | next hr hop ih => exact hr.sound.assembled_next ih hop

/-- The invariant of the bindings in use. Whatever reloads and replacements have been made, with
whatever is in the files read, every chord is configured, its key or character is one that a
pattern can name, and the categories for completion have chords; the same holds of every snapshot
that has ever been in use. -/
theorem regular_of_reachable {h : History} (hr : h.Reachable) :
    h.active.current.bindings.Regular ∧ ∀ s ∈ h.used, s.bindings.Regular :=
  ⟨(hr.assembled _ hr.sound.current_mem).regular, fun s hs => (hr.assembled s hs).regular⟩

def exampleOperations : List Operation :=
  [.reload { Config.empty with submitInput := ["ctrl+f5".toList, " ".toList] },
   .reloadFile (fun _ => .missing) "keys.conf".toList,
   .reload { Config.empty with submitInput := ["ctrl+f25".toList] },
   .replace Bindings.default]

theorem regular_of_reachable_example :
    ∃ h : History, h = (start Bindings.default).run exampleOperations ∧ h.Reachable ∧
      h.used.map (fun s => s.bindings.submitInput) =
        [[], [.named (.function 5) { control := true }], [.named (.function 5) { control := true }],
          [.named (.function 5) { control := true }], []] ∧
      h.active.current.bindings.Regular ∧ ∀ s ∈ h.used, s.bindings.Regular := by
  have hr : ((start Bindings.default).run exampleOperations).Reachable := by
    refine (Reachable.start .default).run ?_
    intro b hb
    have hdefault : b = Bindings.default := by simpa [exampleOperations] using hb
    exact hdefault ▸ .default
  exact ⟨_, rfl, hr, by decide +kernel, regular_of_reachable hr⟩

end Active.History

end Keymap

import Keymap.Proofs.Active.Threads

/-! # Calls of many threads, one at a time

The steps of any number of threads fall in any order. Main statement: every run comes
to the same as its calls made one at a time, in the order of the single steps on what is
shared, and what has been in use is one sequence of snapshots.
-/
namespace Keymap.Threads

section

variable {Thread : Type}

/-- What the marks of all threads record, in the order of the steps. -/
def record {α : Type} (f : Mark → Option α) (trace : List (Thread × Mark)) : List α :=
  trace.filterMap fun step => f step.2

def sequence (b : Bindings) (trace : List (Thread × Mark)) : List Snapshot :=
  (Active.ofBindings b).current :: (record Mark.exchange? trace).map Prod.snd

variable [DecidableEq Thread]

def own (i : Thread) (trace : List (Thread × Mark)) : List Mark :=
  (trace.filter fun step => step.1 = i).map Prod.snd

variable (Thread) in
structure State where
  active : Active
  phase : Thread → Phase

inductive Run (b : Bindings) : List (Thread × Mark) → State Thread → Prop
  | start : Run b [] ⟨Active.ofBindings b, fun _ => .idle⟩
  | step {trace s p marks p' a} (h : Run b trace s) (i : Thread) (hp : s.phase i = p)
      (hm : Moves s.active p marks p' a) :
      Run b (trace ++ marks.map (i, ·)) ⟨a, Function.update s.phase i p'⟩

/-- The run is as if each call had been made at one moment between its beginning and its end. -/
structure Linearized (b : Bindings) (trace : List (Thread × Mark)) (s : State Thread) : Prop where
  /-- Each thread goes from call to call, and each call takes effect between its two ends. -/
  rounds : ∀ i, Rounds (own i trace) (s.phase i)
  /-- The calls give the same answers and leave the same if they are made one at a time in the
  order in which they take effect. -/
  sequential : replay (Active.ofBindings b) ((record Mark.effect? trace).map Prod.fst) =
    ((record Mark.effect? trace).map Prod.snd, s.active)
  /-- The number of a snapshot is its place in the sequence, so none comes twice. -/
  numbered : (sequence b trace).map Snapshot.number = List.range (sequence b trace).length
  /-- What is taken out of use, in order, and what is in use at the end are the sequence. -/
  chain : sequence b trace =
    (record Mark.exchange? trace).map Prod.fst ++ [s.active.current]
  /-- An exchange takes out of use the element just before the one that it puts in use. -/
  adjacent : ∀ exchange ∈ record Mark.exchange? trace,
    [exchange.1, exchange.2] <:+: sequence b trace
  /-- Once no call is in progress, what the replacements have returned, what the reloads have
  dropped and what is in use make up the sequence. -/
  partition : (∀ i, s.phase i = .idle) →
    (record Mark.returned? trace ++ record Mark.dropped? trace ++ [s.active.current]).Perm
      (sequence b trace)
  copied : ∀ copy ∈ record Mark.copy? trace, copy ∈ sequence b trace
  /-- The copies that a thread takes never go back in the sequence. -/
  forward : ∀ i, ((own i trace).filterMap Mark.copy?).Pairwise (·.number ≤ ·.number)

end

section

variable {Thread : Type} {b : Bindings} {trace : List (Thread × Mark)}

@[simp] theorem record_append {α : Type} (f : Mark → Option α) (i : Thread) (marks : List Mark) :
    record f (trace ++ marks.map (i, ·)) = record f trace ++ marks.filterMap f := by
  simp [record, List.filterMap_map]

/-- What holds of the snapshots that a run records. The number of each is its place. -/
structure Shared (b : Bindings) (trace : List (Thread × Mark)) (a : Active) : Prop where
  numbered : (sequence b trace).map Snapshot.number = List.range a.next
  chain : sequence b trace = (record Mark.exchange? trace).map Prod.fst ++ [a.current]
  next : a.next = a.current.number + 1
  copied : ∀ copy ∈ record Mark.copy? trace, copy ∈ sequence b trace
  forward : (record Mark.copy? trace).Pairwise (·.number ≤ ·.number)

theorem Shared.number_le {a : Active} (h : Shared b trace a) {s : Snapshot}
    (hs : s ∈ sequence b trace) : s.number ≤ a.current.number := by
  have hnumber : s.number ∈ List.range a.next := by
    rw [← h.numbered]
    exact List.mem_map_of_mem hs
  have hnext := h.next
  rw [List.mem_range] at hnumber
  omega

theorem shared_start : Shared b ([] : List (Thread × Mark)) (Active.ofBindings b) := by
  constructor <;> simp [sequence, record, Active.ofBindings]

theorem Shared.step {a a' : Active} {marks : List Mark} (h : Shared b trace a)
    (ha : Access a marks a') (i : Thread) : Shared b (trace ++ marks.map (i, ·)) a' := by
  have hcurrent : a.current ∈ sequence b trace := by simp [h.chain]
  cases ha with
  | silent hexchange hcopy =>
    constructor
    · simpa [sequence, hexchange] using h.numbered
    · simpa [sequence, hexchange] using h.chain
    · exact h.next
    · simpa [sequence, hexchange, hcopy] using h.copied
    · simpa [hcopy] using h.forward
  | copy hexchange hcopy =>
    have hsequence : sequence b (trace ++ marks.map (i, ·)) = sequence b trace := by
      simp [sequence, hexchange]
    constructor
    · rw [hsequence]
      exact h.numbered
    · rw [hsequence, record_append, hexchange, List.append_nil]
      exact h.chain
    · exact h.next
    · rw [hsequence, record_append, hcopy, List.forall_mem_append, List.forall_mem_singleton]
      exact ⟨h.copied, hcurrent⟩
    · rw [record_append, hcopy, List.pairwise_append]
      refine ⟨h.forward, List.pairwise_singleton _ _, ?_⟩
      intro copy hmem
      simpa using h.number_le (h.copied copy hmem)
  | @exchange b' hexchange hcopy =>
    have hsequence : sequence b (trace ++ marks.map (i, ·)) =
        sequence b trace ++ [(a.install b').current] := by
      simp [sequence, hexchange]
    constructor
    · rw [hsequence, List.map_append, h.numbered]
      exact List.range_succ.symm
    · rw [hsequence, record_append, hexchange, h.chain]
      simp
    · rfl
    · rw [hsequence, record_append, hcopy, List.append_nil]
      intro copy hmem
      exact List.mem_append_left _ (h.copied copy hmem)
    · rw [record_append, hcopy, List.append_nil]
      exact h.forward

theorem displaced_perm (trace : List (Thread × Mark)) :
    (record Mark.replaced? trace ++ record Mark.dropped? trace).Perm
      ((record Mark.exchange? trace).map Prod.fst) := by
  induction trace with
  | nil => exact .nil
  | cons step trace ih =>
    obtain ⟨i, mark⟩ := step
    cases mark with
    | reload config old new => exact List.perm_middle.trans (ih.cons old)
    | replace old new => exact ih.cons old
    | _ => exact ih

/-- What is taken out stands just before what is put in. -/
theorem infix_of_chain {first last : Snapshot} {exchanges : List (Snapshot × Snapshot)}
    (h : first :: exchanges.map Prod.snd = exchanges.map Prod.fst ++ [last])
    {exchange : Snapshot × Snapshot} (hmem : exchange ∈ exchanges) :
    [exchange.1, exchange.2] <:+: first :: exchanges.map Prod.snd := by
  obtain ⟨before, after, rfl⟩ := List.append_of_mem hmem
  have hsplit : (first :: before.map Prod.snd) ++ (exchange.2 :: after.map Prod.snd) =
      (before.map Prod.fst ++ [exchange.1]) ++ (after.map Prod.fst ++ [last]) := by
    simpa using h
  have hbefore := (List.append_inj hsplit (by simp)).1
  refine ⟨before.map Prod.fst, after.map Prod.snd, ?_⟩
  have hcons : first :: (before ++ exchange :: after).map Prod.snd =
      (first :: before.map Prod.snd) ++ (exchange.2 :: after.map Prod.snd) := by
    simp
  rw [hcons, hbefore]
  simp

variable [DecidableEq Thread]

@[simp] theorem own_append (i j : Thread) (marks : List Mark) :
    own j (trace ++ marks.map (i, ·)) = own j trace ++ if i = j then marks else [] := by
  by_cases h : i = j
  · simp [own, List.filter_map, Function.comp_def, h]
  · simp [own, List.filter_map, Function.comp_def, h]

theorem count_own {α : Type} [DecidableEq α] (f : Mark → Option α) (i : Thread) (x : α)
    (trace : List (Thread × Mark)) :
    ((own i trace).filterMap f).count x =
      (trace.filterMap fun step => (f step.2).map (step.1, ·)).count (i, x) := by
  induction trace with
  | nil => rfl
  | cons step trace ih =>
    obtain ⟨j, mark⟩ := step
    by_cases hj : j = i
    · subst hj
      cases hf : f mark with
      | none => simpa [own, hf] using ih
      | some y => simpa [own, hf, List.count_cons] using ih
    · cases hf : f mark with
      | none => simpa [own, hf, hj] using ih
      | some y => simpa [own, hf, hj, List.count_cons] using ih

/-- Two readings of a record that agree on each thread agree up to the order of the threads. -/
theorem record_perm_of_own {α : Type} [DecidableEq α] {f g : Mark → Option α}
    (h : ∀ i, (own i trace).filterMap f = (own i trace).filterMap g) :
    (record f trace).Perm (record g trace) := by
  have hrecord (f : Mark → Option α) : record f trace =
      (trace.filterMap fun step => (f step.2).map (step.1, ·)).map Prod.snd := by
    simp [record, List.map_filterMap, Function.comp_def]
  rw [hrecord f, hrecord g]
  apply List.Perm.map
  rw [List.perm_iff_count]
  rintro ⟨i, x⟩
  rw [← count_own, ← count_own, h i]

namespace Run

variable {s : State Thread}

theorem rounds (h : Run b trace s) (i : Thread) : Rounds (own i trace) (s.phase i) := by
  induction h with
  | start => exact ⟨[], [], rfl, by simp, .idle⟩
  | step h j hp hm ih =>
    rw [own_append]
    by_cases hj : j = i
    · subst hj
      rw [hp] at ih
      simpa using hm.rounds ih
    · simpa [hj, Function.update_of_ne (Ne.symm hj)] using ih

theorem shared (h : Run b trace s) : Shared b trace s.active := by
  induction h with
  | start => exact shared_start
  | step h i _ hm ih => exact ih.step hm.access i

theorem replay_effects (h : Run b trace s) :
    replay (Active.ofBindings b) ((record Mark.effect? trace).map Prod.fst) =
      ((record Mark.effect? trace).map Prod.snd, s.active) := by
  induction h with
  | start => rfl
  | step h i hp hm ih =>
    obtain ⟨_, pending, -, -, hpending⟩ := h.rounds i
    rw [hp] at hpending
    rw [record_append, List.map_append, List.map_append, replay_append, ih,
      hm.replay hpending]

/-- A thread goes on as long as no other thread moves. -/
theorem path (h : Run b trace s) {i : Thread} {p p' : Phase} {marks : List Mark} {a : Active}
    (hp : s.phase i = p) (hpath : Path s.active p marks p' a) :
    Run b (trace ++ marks.map (i, ·)) ⟨a, Function.update s.phase i p'⟩ := by
  obtain ⟨active, phase⟩ := s
  dsimp only at hp hpath ⊢
  induction hpath generalizing trace phase with
  | refl =>
    subst hp
    simpa using h
  | @head a₀ a₁ a₂ p p₁ p₂ marks marks' hm _ ih =>
    have hnext := ih (Function.update phase i p₁) (h.step i hp hm) (Function.update_self i p₁ phase)
    simpa using hnext

/-- A call that no other thread interrupts has the answer of its operation and leaves what that
leaves. -/
theorem uninterrupted (h : Run b trace s) {i : Thread} (hi : s.phase i = .idle) (call : Call) :
    ∃ marks, Round marks ∧
      marks.getLast? = some (.leave call (call.operation.perform s.active).1) ∧
      Run b (trace ++ marks.map (i, ·)) ⟨(call.operation.perform s.active).2, s.phase⟩ := by
  obtain ⟨marks, hround, hlast, hpath⟩ := exists_path s.active call
  have hrun := h.path hi hpath
  rw [← hi, Function.update_eq_self] at hrun
  exact ⟨marks, hround, hlast, hrun⟩

end Run

/-- However the steps of the threads fall, their calls are as if each were made at one moment
between its beginning and its end: they answer and leave what the same calls do one at a time. What
has been in use is one sequence, of which every exchange takes out the element before its own,
nothing is lost and nothing comes twice; a copy is an element of it, and no thread goes back. -/
theorem linearized_of_run {s : State Thread} (h : Run b trace s) : Linearized b trace s := by
  have hshared := h.shared
  have hlength : s.active.next = (sequence b trace).length := by
    rw [← List.length_map Snapshot.number, hshared.numbered, List.length_range]
  constructor
  · exact h.rounds
  · exact h.replay_effects
  · rw [← hlength]
    exact hshared.numbered
  · exact hshared.chain
  · intro exchange hmem
    exact infix_of_chain hshared.chain hmem
  · intro hidle
    have hreturned : (record Mark.returned? trace).Perm (record Mark.replaced? trace) := by
      apply record_perm_of_own
      intro i
      have hrounds := h.rounds i
      rw [hidle i] at hrounds
      exact hrounds.returned
    rw [hshared.chain]
    exact ((hreturned.append_right _).trans (displaced_perm trace)).append_right _
  · exact hshared.copied
  · intro i
    have hown : (own i trace).Sublist (trace.map Prod.snd) := List.filter_sublist.map Prod.snd
    have hcopies : ((own i trace).filterMap Mark.copy?).Sublist (record Mark.copy? trace) := by
      rw [record, ← Function.comp_def, ← List.filterMap_map]
      exact hown.filterMap Mark.copy?
    exact hshared.forward.sublist hcopies

end

/-- A thread reloads; between its bindings being complete and their being put in use, another thread
replaces the bindings. Then the second one takes a copy, and the first one fails to reload. -/
def overtaken (config bad : Config) (cause : BindingError) (first second third : Snapshot) :
    List (Bool × Mark) :=
  [(false, .enter (.reload config)), (true, .enter (.replace second.bindings)),
    (true, .replace first second), (false, .reload config second third),
    (true, .leave (.replace second.bindings) (.snapshot first)), (true, .enter .current),
    (true, .current third), (false, .leave (.reload config) (.reload (.ok third))),
    (false, .enter (.reload bad)), (false, .refuse bad cause),
    (true, .leave .current (.snapshot third)),
    (false, .leave (.reload bad) (.reload (.error cause)))]

theorem run_overtaken {config bad : Config} {cause : BindingError} {b b' : Bindings}
    (hbuild : Bindings.build config = .ok b') (hbad : Bindings.build bad = .error cause) :
    ∃ phase, (∀ i, phase i = .idle) ∧
      Run Bindings.default (overtaken config bad cause ⟨0, Bindings.default⟩ ⟨1, b⟩ ⟨2, b'⟩)
        ⟨⟨⟨2, b'⟩, 3⟩, phase⟩ := by
  have h0 : Run Bindings.default ([] : List (Bool × Mark)) _ := .start
  have h1 := h0.step false rfl (.enter (.reload config))
  have h2 := h1.step false rfl (.build hbuild)
  have h3 := h2.step true rfl (.enter (.replace b))
  have h4 := h3.step true rfl .replace
  have h5 := (h4.step false rfl .scan).step false rfl .install
  have h6 := (h5.step true rfl .leave).step true rfl (.enter .current)
  have h7 := (h6.step true rfl .current).step false rfl .leave
  have h8 := (h7.step false rfl (.enter (.reload bad))).step false rfl (.refuse hbad)
  have h9 := (h8.step true rfl .leave).step false rfl .leave
  refine ⟨_, ?_, h9⟩
  intro i
  cases i <;> rfl

theorem linearized_of_run_overtaken :
    let config : Config := ⟨[], [], [], ["Enter".toList]⟩
    let bad : Config := ⟨[], [], [], ["Banana".toList]⟩
    let cause := BindingError.invalidPattern .submitInput "Banana".toList
      (.unrecognized "Banana".toList)
    let first : Snapshot := ⟨0, Bindings.default⟩
    let second : Snapshot := ⟨1, ByCategory.ofFun fun _ => []⟩
    let third : Snapshot := ⟨2, Bindings.default.set .submitInput [.named .enter {}]⟩
    let trace := overtaken config bad cause first second third
    ∃ s, Run Bindings.default trace s ∧ Linearized Bindings.default trace s ∧
      sequence Bindings.default trace = [first, second, third] ∧
      record Mark.returned? trace = [first] ∧ record Mark.dropped? trace = [second] ∧
      s.active.current = third ∧ ([first] ++ [second] ++ [third]).Perm [first, second, third] := by
  intro config bad cause first second third trace
  have hbuild : Bindings.build config = .ok third.bindings := by decide +kernel
  have hbad : Bindings.build bad = .error cause := by decide +kernel
  obtain ⟨phase, hidle, hrun⟩ := run_overtaken (b := second.bindings) hbuild hbad
  have hlinearized := linearized_of_run hrun
  exact ⟨_, hrun, hlinearized, rfl, rfl, rfl, rfl, hlinearized.partition hidle⟩

end Keymap.Threads

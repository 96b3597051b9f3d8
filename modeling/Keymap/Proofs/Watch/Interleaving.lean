import Keymap.Proofs.Active.Reload
import Mathlib.Logic.Relation

/-! # A file that is replaced while it is watched

A writer replaces the watched file at any moment, and the event of each replacement
arrives later. A call that reloads empties the queue, reads the file and installs what
it has read, and the writer can come between any two of these steps. Main statement:
once all events have arrived and no call has anything left to do, the last thing read
is what the file holds.
-/
namespace Keymap.LiveReload

open Watch (Announces)

inductive Phase where
  | idle
  /-- The queue told of a change, and the file is to be read. -/
  | changed
  /-- The file has been read and is to be installed. -/
  | loaded (reading : Reading)

structure State where
  tree : FileTree
  watch : Watch
  active : Active
  phase : Phase := .idle
  /-- The events of replacements that have not arrived yet. -/
  inFlight : List Notification := []
  /-- What the last reading gave, and the active bindings at that moment. -/
  lastRead? : Option (Reading × Active) := none
  /-- Whether there has been a replacement. -/
  replaced : Bool := false

namespace State

def file (s : State) : Reading := s.tree.read s.watch.path

def replace (s : State) (t : FileTree) (n : Notification) : State :=
  { s with tree := t, inFlight := n :: s.inFlight, replaced := true }

def arrive (s : State) (n : Notification) (others : List Notification) : State :=
  { s with inFlight := others, watch := s.watch.deliver n }

def drain (s : State) : State :=
  { s with watch := s.watch.changed.2, phase := if s.watch.changed.1 then .changed else .idle }

def read (s : State) : State :=
  { s with phase := .loaded s.file, lastRead? := some (s.file, s.active) }

def install (s : State) (reading : Reading) : State :=
  { s with phase := .idle, active := (s.active.reloadReading s.watch.path reading).value.2 }

end State

/-- One step of the writer, of the events or of the call in progress. Around the watched file
anything may happen: other entries of the tree change, and notifications of any kind arrive. -/
inductive Step (s : State) : State → Prop
  | replace {t bytes n} (hfile : t.read s.watch.path = .content bytes)
      (hn : Announces s.watch.path n) : Step s (s.replace t n)
  | arrive {before n after} (hflight : s.inFlight = before ++ n :: after) :
      Step s (s.arrive n (before ++ after))
  | elsewhere {t} (hfile : t.read s.watch.path = s.file) : Step s { s with tree := t }
  | notice (n : Notification) : Step s { s with watch := s.watch.deliver n }
  | drain (hphase : s.phase = .idle) : Step s s.drain
  | read (hphase : s.phase = .changed) : Step s s.read
  | install {reading} (hphase : s.phase = .loaded reading) : Step s (s.install reading)

inductive Reachable : State → Prop
  | start (tree : FileTree) (watch : Watch) (active : Active) : Reachable { tree, watch, active }
  | step {s s' : State} (h : Reachable s) (hstep : Step s s') : Reachable s'

structure Invariant (s : State) : Prop where
  announced : ∀ n ∈ s.inFlight, Announces s.watch.path n
  content : s.replaced → ∃ bytes, s.file = .content bytes
  /-- A replacement that has not been read is on its way to be read. -/
  pending : s.replaced → s.inFlight ≠ [] ∨ (∃ n ∈ s.watch.queue, Announces s.watch.path n) ∨
    s.phase = .changed ∨ ∃ before, s.lastRead? = some (s.file, before)
  /-- What was read last is still to be installed, or it has been. -/
  settled : ∀ reading before, s.lastRead? = some (reading, before) →
    (s.phase = .loaded reading ∧ s.active = before) ∨
      ((∀ other, s.phase ≠ .loaded other) ∧
        s.active = (before.reloadReading s.watch.path reading).value.2)

theorem invariant_start (tree : FileTree) (watch : Watch) (active : Active) :
    Invariant { tree, watch, active } := by
  refine ⟨?_, ?_, ?_, ?_⟩ <;> simp

section

variable {s s' : State}

theorem announced_step (hs : Invariant s) (hstep : Step s s') :
    ∀ n ∈ s'.inFlight, Announces s'.watch.path n := by
  have h := hs.announced
  cases hstep with
  | replace _ hn =>
    intro m hm
    rcases List.mem_cons.1 hm with rfl | hm
    · exact hn
    · exact h m hm
  | arrive hflight =>
    intro m hm
    refine h m ?_
    rw [hflight]
    simp only [State.arrive, List.mem_append] at hm
    simp only [List.mem_append, List.mem_cons]
    tauto
  | _ => exact h

theorem content_step (hs : Invariant s) (hstep : Step s s') (hreplaced : s'.replaced) :
    ∃ bytes, s'.file = .content bytes := by
  cases hstep with
  | replace hfile _ => exact ⟨_, hfile⟩
  | elsewhere hfile =>
    obtain ⟨bytes, hbytes⟩ := hs.content hreplaced
    exact ⟨bytes, hfile.trans hbytes⟩
  | _ => exact hs.content hreplaced

theorem pending_step (hs : Invariant s) (hstep : Step s s') (hreplaced : s'.replaced) :
    s'.inFlight ≠ [] ∨ (∃ n ∈ s'.watch.queue, Announces s'.watch.path n) ∨
      s'.phase = .changed ∨ ∃ before, s'.lastRead? = some (s'.file, before) := by
  cases hstep with
  | replace _ _ => exact Or.inl (List.cons_ne_nil _ _)
  | @arrive before n after hflight =>
    refine Or.inr (Or.inl ⟨n, ?_, hs.announced n ?_⟩)
    · simp [State.arrive]
    · simp [hflight]
  | elsewhere hfile =>
    rcases hs.pending hreplaced with h | h | h | ⟨before, h⟩
    · exact Or.inl h
    · exact Or.inr (Or.inl h)
    · exact Or.inr (Or.inr (Or.inl h))
    · exact Or.inr (Or.inr (Or.inr ⟨before, by rw [h, ← hfile]; rfl⟩))
  | notice n =>
    rcases hs.pending hreplaced with h | ⟨m, hm, h⟩ | h
    · exact Or.inl h
    · exact Or.inr (Or.inl ⟨m, List.mem_append_left _ hm, h⟩)
    · exact Or.inr (Or.inr h)
  | drain hphase =>
    rcases hs.pending hreplaced with h | h | h | h
    · exact Or.inl h
    · refine Or.inr (Or.inr (Or.inl ?_))
      rw [State.drain, if_pos (Watch.changed_fst_iff.2 h)]
    · rw [hphase] at h
      cases h
    · exact Or.inr (Or.inr (Or.inr h))
  | read _ => exact Or.inr (Or.inr (Or.inr ⟨s.active, rfl⟩))
  | install hphase =>
    rcases hs.pending hreplaced with h | h | h | h
    · exact Or.inl h
    · exact Or.inr (Or.inl h)
    · rw [hphase] at h
      cases h
    · exact Or.inr (Or.inr (Or.inr h))

theorem settled_step (hs : Invariant s) (hstep : Step s s') {reading : Reading} {before : Active}
    (hread : s'.lastRead? = some (reading, before)) :
    (s'.phase = .loaded reading ∧ s'.active = before) ∨
      ((∀ other, s'.phase ≠ .loaded other) ∧
        s'.active = (before.reloadReading s'.watch.path reading).value.2) := by
  cases hstep with
  | drain hphase =>
    rcases hs.settled reading before hread with ⟨hloaded, -⟩ | ⟨-, hactive⟩
    · rw [hphase] at hloaded
      cases hloaded
    · refine Or.inr ⟨?_, hactive⟩
      intro other
      simp only [State.drain]
      split <;> simp
  | read hphase =>
    obtain ⟨rfl, rfl⟩ := Prod.mk.inj (Option.some.inj hread)
    exact Or.inl ⟨rfl, rfl⟩
  | install hphase =>
    rcases hs.settled reading before hread with ⟨hloaded, hactive⟩ | ⟨hnone, -⟩
    · rw [hphase] at hloaded
      obtain rfl := Phase.loaded.inj hloaded
      refine Or.inr ⟨?_, ?_⟩
      · simp [State.install]
      · rw [State.install, hactive]
    · exact absurd hphase (hnone _)
  | _ => exact hs.settled reading before hread

theorem Invariant.step (hs : Invariant s) (hstep : Step s s') : Invariant s' where
  announced := announced_step hs hstep
  content := content_step hs hstep
  pending := pending_step hs hstep
  settled _ _ := settled_step hs hstep

theorem Reachable.invariant (h : Reachable s) : Invariant s := by
  induction h with
  | start tree watch active => exact invariant_start tree watch active
  | step _ hstep ih => exact ih.step hstep

end

/-- No saved file is lost. Where a replacement has been made, no event of the file is on its way or
in the queue and no call is in progress, what was read last is what the file holds: the active
bindings are those of the file if it gives any, and otherwise those that were active before. -/
theorem lastRead_eq_file {s : State} (h : Reachable s) (hreplaced : s.replaced = true)
    (hflight : s.inFlight = []) (hqueue : ∀ n ∈ s.watch.queue, ¬ Announces s.watch.path n)
    (hphase : s.phase = .idle) :
    ∃ bytes before, s.file = .content bytes ∧ s.lastRead? = some (.content bytes, before) ∧
      match (ConfigFile.loadBindings s.tree s.watch.path).run.value with
      | .ok b => s.active.current.bindings = b
      | .error _ => s.active = before := by
  have hs := h.invariant
  obtain ⟨bytes, hbytes⟩ := hs.content hreplaced
  have hread : ∃ before, s.lastRead? = some (s.file, before) := by
    rcases hs.pending hreplaced with hmem | ⟨n, hn, hannounces⟩ | hchanged | hread
    · exact absurd hflight hmem
    · exact absurd hannounces (hqueue n hn)
    · rw [hphase] at hchanged
      cases hchanged
    · exact hread
  obtain ⟨before, hbefore⟩ := hread
  refine ⟨bytes, before, hbytes, hbytes ▸ hbefore, ?_⟩
  rcases hs.settled _ before hbefore with ⟨hloaded, -⟩ | ⟨-, hactive⟩
  · rw [hphase] at hloaded
    cases hloaded
  · rw [hactive, Active.value_reloadReading, ConfigFile.value_run_loadBindings, State.file]
    cases ConfigFile.build s.watch.path (s.tree.read s.watch.path) <;> rfl

/-- A call that nothing interrupts does in these steps what reloading does in one. -/
theorem exists_steps_reloadIfChanged {s : State} (hphase : s.phase = .idle) :
    ∃ s', Relation.ReflTransGen Step s s' ∧ s'.phase = .idle ∧
      (s.watch.reloadIfChanged s.active s.tree).value.2 = (s'.watch, s'.active) := by
  rw [Watch.reloadIfChanged, Watch.value_reloadIfChangedFrom]
  by_cases hchanged : s.watch.changed.1 = true
  · refine ⟨s.drain.read.install s.file, ?_, rfl, ?_⟩
    · have hdrain : s.drain.phase = .changed := if_pos hchanged
      exact ((Relation.ReflTransGen.single (.drain hphase)).tail (.read hdrain)).tail (.install rfl)
    · rw [if_pos hchanged]
      simp [State.install, State.read, State.drain, State.file, Active.value_reloadReading]
  · refine ⟨s.drain, .single (.drain hphase), if_neg hchanged, ?_⟩
    rw [if_neg hchanged]
    rfl

def keys : Text := "keys.conf".toList

def holding (content : String) : FileTree :=
  { entries := [([keys], .file (Text.encode content.toList))] }

theorem read_holding (content : String) :
    (holding content).read keys = .content (Text.encode content.toList) := rfl

def watching : State :=
  { tree := holding ""
    watch := { path := keys, root := [], place? := some [] }
    active := .default }

def saved : Notification := .event .modify [keys]

def noticed : State := (watching.replace (holding "submit-input = F4") saved).arrive saved []

/-- The file is replaced once more after a call has emptied the queue, which then reads the newer
content. The event of the second replacement leads to another call. -/
def overtaken : State :=
  let first := (noticed.drain.replace (holding "submit-input = F5") saved).read
  let second := ((first.install first.file).arrive saved []).drain.read
  second.install second.file

theorem announces_saved : Announces keys saved := .event (Or.inr rfl) List.mem_cons_self rfl

theorem reachable_noticed : Reachable noticed := by
  have h0 : Reachable watching := .start _ _ _
  have h1 := h0.step (.replace (read_holding "submit-input = F4") announces_saved)
  have hflight : (watching.replace (holding "submit-input = F4") saved).inFlight =
      [] ++ saved :: [] := rfl
  exact h1.step (.arrive hflight)

theorem reachable_overtaken : Reachable overtaken := by
  have h1 := reachable_noticed.step (.drain rfl)
  have h2 := h1.step (.replace (read_holding "submit-input = F5") announces_saved)
  have h3 := (h2.step (.read rfl)).step (.install rfl)
  have hflight : [saved] = [] ++ saved :: [] := rfl
  have h4 := (h3.step (.arrive hflight)).step (.drain rfl)
  exact (h4.step (.read rfl)).step (.install rfl)

theorem lastRead_overtaken :
    Reachable overtaken ∧ overtaken.replaced = true ∧ overtaken.inFlight = [] ∧
      overtaken.watch.queue = [] ∧ overtaken.phase = .idle ∧
      overtaken.active.current.bindings =
        { Bindings.default with submitInput := [.named (.function 5) {}] } := by
  have hload : (ConfigFile.loadBindings overtaken.tree overtaken.watch.path).run.value =
      .ok { Bindings.default with submitInput := [.named (.function 5) {}] } := by
    rw [ConfigFile.value_run_loadBindings, ConfigFile.build_eq_ok_iff]
    refine ⟨Config.empty.push .submitInput "F5".toList, ?_, by decide +kernel⟩
    change ConfigFile.ofReading keys ((holding "submit-input = F5").read keys) = _
    rw [read_holding, ConfigFile.ofReading, Text.decode?_encode]
    decide +kernel
  obtain ⟨bytes, before, -, -, hactive⟩ := lastRead_eq_file reachable_overtaken rfl rfl
    (fun n hn => by cases hn) rfl
  rw [hload] at hactive
  exact ⟨reachable_overtaken, rfl, rfl, rfl, rfl, hactive⟩

end Keymap.LiveReload

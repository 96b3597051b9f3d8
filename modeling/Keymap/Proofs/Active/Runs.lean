import Keymap.Proofs.Active.Reload

/-! # Runs of operations on the active bindings

A run is a list of operations, each with the file system that it meets. What has been
in use is kept apart from what is in use now, so that one can ask later what stands
behind a snapshot taken earlier. Main statement: each operation replaces the snapshot
in use by a new one as a whole or not at all, and no snapshot ever changes.
-/
namespace Keymap.Active

/-- What can be asked of the active bindings. Where an operation reads a file, `read` says what a
path gives to its reader at that moment. -/
inductive Operation where
  | reload (config : Config)
  | reloadFile (read : Text → Reading) (path : Text)
  | reloadIfChanged (read : Text → Reading) (watch : Watch)
  | replace (bindings : Bindings)
  | current
  | matchesPress (press : KeyPress) (c : Category)

inductive Answer where
  | reload (result : Except BindingError Snapshot)
  | reloadFile (result : Except ConfigError Snapshot)
  | reloadIfChanged (result? : Option (Except ConfigError Snapshot))
  | snapshot (s : Snapshot)
  | triggered (answer : Bool)

namespace Answer

def isRefusal : Answer → Bool
  | reload (.error _) | reloadFile (.error _) => true
  | reloadIfChanged none | reloadIfChanged (some (.error _)) => true
  | _ => false

def reloaded? : Answer → Option Snapshot
  | reload (.ok s) | reloadFile (.ok s) | reloadIfChanged (some (.ok s)) => some s
  | _ => none

def handed? : Answer → Option Snapshot
  | snapshot s => some s
  | answer => answer.reloaded?

theorem handed?_of_isRefusal {answer : Answer} (h : answer.isRefusal) : answer.handed? = none := by
  cases answer with
  | reload result =>
    cases result with
    | error _ => rfl
    | ok _ => cases h
  | reloadFile result =>
    cases result with
    | error _ => rfl
    | ok _ => cases h
  | reloadIfChanged result? =>
    match result? with
    | none => rfl
    | some (.error _) => rfl
    | some (.ok _) => cases h
  | snapshot _ => cases h
  | triggered _ => cases h

theorem handed?_of_reloaded? {answer : Answer} {s : Snapshot} (h : answer.reloaded? = some s) :
    answer.handed? = some s := by
  cases answer with
  | snapshot t => cases h
  | _ => exact h

end Answer

namespace Operation

def perform (a : Active) : Operation → Answer × Active
  | reload config => ((a.reload config).value).map .reload id
  | reloadFile read path => ((a.reloadReading path (read path)).value).map .reloadFile id
  | reloadIfChanged read w => ((w.reloadIfChangedFrom a read).value).map .reloadIfChanged Prod.snd
  | replace b => (a.replace b).map .snapshot id
  | current => (.snapshot a.current, a)
  | matchesPress press c => (.triggered (a.current.bindings.matchesPress press c), a)

inductive Source : Operation → Config → Prop
  | given {config} : Source (.reload config) config
  | file {read path config} (h : ConfigFile.ofReading path (read path) = .ok config) :
      Source (.reloadFile read path) config
  | changed {read config} {w : Watch} (hw : ∃ n ∈ w.queue, Watch.Announces w.path n)
      (h : ConfigFile.ofReading w.path (read w.path) = .ok config) :
      Source (.reloadIfChanged read w) config

/-- The operation is a reload, and these are the bindings of the configuration that it gets. -/
def Builds (op : Operation) (b : Bindings) : Prop :=
  ∃ config, op.Source config ∧ Bindings.build config = .ok b

end Operation

/-- The active bindings at a point of a run, and all snapshots that have been in use up to there,
the latest first. -/
structure History where
  active : Active
  used : List Snapshot

namespace History

def start (b : Bindings) : History := ⟨ofBindings b, [(ofBindings b).current]⟩

def next (h : History) (op : Operation) : History :=
  ⟨(op.perform h.active).2, (op.perform h.active).2.current :: h.used⟩

def run (h : History) (ops : List Operation) : History := ops.foldl next h

/-- What stands behind the number of a snapshot: the bindings that have been in use under it, and of
several the latest. -/
def bindings? (h : History) (number : Nat) : Option Bindings :=
  (h.used.find? fun s => s.number == number).map Snapshot.bindings

/-- What an operation may answer, and the snapshot that may be in use afterwards. -/
inductive Turn (h : History) : Operation → Answer → Snapshot → Prop
  | refused {op answer} (hanswer : answer.isRefusal) (hnone : ∀ b, ¬ op.Builds b) :
      Turn h op answer h.active.current
  | reloaded {op answer s} (hbuilt : op.Builds s.bindings)
      (hnew : ∀ old ∈ h.used, old.number ≠ s.number) (hanswer : answer.reloaded? = some s) :
      Turn h op answer s
  | replaced {s} (hnew : ∀ old ∈ h.used, old.number ≠ s.number) :
      Turn h (.replace s.bindings) (.snapshot h.active.current) s
  | asked : Turn h .current (.snapshot h.active.current) h.active.current
  | matched {press c} :
      Turn h (.matchesPress press c) (.triggered (h.active.current.bindings.matchesPress press c))
        h.active.current

/-- Numbers below the next one are taken, and each stands for one snapshot. -/
structure Sound (h : History) : Prop where
  lt_next : ∀ s ∈ h.used, s.number < h.active.next
  current_mem : h.active.current ∈ h.used
  unique : ∀ s ∈ h.used, ∀ t ∈ h.used, s.number = t.number → s = t

end History

namespace Operation

theorem builds_reload {config : Config} {b : Bindings} :
    (reload config).Builds b ↔ Bindings.build config = .ok b := by
  constructor
  · rintro ⟨_, hsource, hb⟩
    cases hsource with
    | given => exact hb
  · intro hb
    exact ⟨config, .given, hb⟩

theorem builds_reloadFile {read : Text → Reading} {path : Text} {b : Bindings} :
    (reloadFile read path).Builds b ↔ ConfigFile.build path (read path) = .ok b := by
  rw [ConfigFile.build_eq_ok_iff]
  constructor
  · rintro ⟨config, hsource, hb⟩
    cases hsource with
    | file h => exact ⟨config, h, hb⟩
  · rintro ⟨config, h, hb⟩
    exact ⟨config, .file h, hb⟩

theorem builds_reloadIfChanged {read : Text → Reading} {w : Watch} {b : Bindings} :
    (reloadIfChanged read w).Builds b ↔
      w.changed.1 ∧ ConfigFile.build w.path (read w.path) = .ok b := by
  rw [ConfigFile.build_eq_ok_iff, Watch.changed_fst_iff]
  constructor
  · rintro ⟨config, hsource, hb⟩
    cases hsource with
    | changed hw h => exact ⟨hw, config, h, hb⟩
  · rintro ⟨hw, config, h, hb⟩
    exact ⟨config, .changed hw h, hb⟩

/-- An operation leaves the active bindings as they are, or installs new ones. -/
theorem perform_snd (a : Active) (op : Operation) :
    (op.perform a).2 = a ∨ ∃ b, (op.perform a).2 = a.install b := by
  have hattempt {ε : Type} (result : Except ε Bindings) :
      (a.attempt result).2 = a ∨ ∃ b, (a.attempt result).2 = a.install b := by
    cases result with
    | error cause => exact Or.inl rfl
    | ok b => exact Or.inr ⟨b, rfl⟩
  cases op with
  | reload config => simpa [perform, value_reload] using hattempt _
  | reloadFile read path => simpa [perform, value_reloadReading] using hattempt _
  | reloadIfChanged read w =>
    rw [perform, Watch.value_reloadIfChangedFrom]
    split
    · exact hattempt _
    · exact Or.inl rfl
  | replace b => exact Or.inr ⟨b, rfl⟩
  | current => exact Or.inl rfl
  | matchesPress press c => exact Or.inl rfl

end Operation

namespace History

theorem sound_start (b : Bindings) : (start b).Sound := by
  refine ⟨?_, ?_, ?_⟩ <;> simp [start, ofBindings]

theorem Sound.next {h : History} (hs : h.Sound) (op : Operation) : (h.next op).Sound := by
  rcases op.perform_snd h.active with heq | ⟨b, heq⟩
  · rw [History.next, heq]
    refine ⟨?_, List.mem_cons_self, ?_⟩
    · intro s hmem
      rcases List.mem_cons.1 hmem with rfl | hmem
      · exact hs.lt_next _ hs.current_mem
      · exact hs.lt_next s hmem
    · have hused : ∀ s ∈ h.active.current :: h.used, s ∈ h.used := by
        simpa using hs.current_mem
      intro s hmem t htmem
      exact hs.unique s (hused s hmem) t (hused t htmem)
  · rw [History.next, heq]
    refine ⟨?_, List.mem_cons_self, ?_⟩
    · intro s hmem
      rcases List.mem_cons.1 hmem with rfl | hmem
      · exact Nat.lt_succ_self _
      · exact Nat.lt_succ_of_lt (hs.lt_next s hmem)
    · intro s hmem t htmem hst
      rcases List.mem_cons.1 hmem with rfl | hmem <;> rcases List.mem_cons.1 htmem with rfl | htmem
      · rfl
      · exact absurd hst (Nat.ne_of_gt (hs.lt_next t htmem))
      · exact absurd hst (Nat.ne_of_lt (hs.lt_next s hmem))
      · exact hs.unique s hmem t htmem hst

theorem Sound.run {h : History} (hs : h.Sound) (ops : List Operation) : (h.run ops).Sound := by
  induction ops generalizing h with
  | nil => exact hs
  | cons op ops ih => exact ih (hs.next op)

theorem mem_used_run {h : History} {s : Snapshot} (hmem : s ∈ h.used) (ops : List Operation) :
    s ∈ (h.run ops).used := by
  induction ops generalizing h with
  | nil => exact hmem
  | cons op ops ih => exact ih (List.mem_cons_of_mem _ hmem)

theorem Sound.bindings?_eq {h : History} (hs : h.Sound) {s : Snapshot} (hmem : s ∈ h.used) :
    h.bindings? s.number = some s.bindings := by
  cases hfind : h.used.find? fun t => t.number == s.number with
  | none => simpa using List.find?_eq_none.1 hfind s hmem
  | some t =>
    have hnumber : t.number = s.number := by simpa using List.find?_some hfind
    have ht : t = s := hs.unique t (List.mem_of_find?_eq_some hfind) s hmem hnumber
    rw [bindings?, hfind, ht]
    rfl

/-- A reload that is an attempt to put bindings in use takes its turn. -/
theorem Sound.turn_attempt {ε : Type} {h : History} (hs : h.Sound) {op : Operation}
    {result : Except ε Bindings} (answer : Except ε Snapshot → Answer)
    (hbuilds : ∀ b, op.Builds b ↔ result = .ok b) (herror : ∀ e, (answer (.error e)).isRefusal)
    (hok : ∀ s, (answer (.ok s)).reloaded? = some s) :
    Turn h op (answer (h.active.attempt result).1) (h.active.attempt result).2.current := by
  cases result with
  | error e =>
    refine .refused (herror e) ?_
    intro b hb
    cases (hbuilds b).1 hb
  | ok b =>
    refine .reloaded ((hbuilds b).2 rfl) ?_ (hok _)
    intro old hold
    exact Nat.ne_of_lt (hs.lt_next old hold)

theorem Sound.turn {h : History} (hs : h.Sound) (op : Operation) :
    Turn h op (op.perform h.active).1 (op.perform h.active).2.current := by
  cases op with
  | reload config =>
    rw [Operation.perform, value_reload]
    exact hs.turn_attempt .reload (fun _ => Operation.builds_reload) (fun _ => rfl) fun _ => rfl
  | reloadFile read path =>
    rw [Operation.perform, value_reloadReading]
    exact hs.turn_attempt .reloadFile (fun _ => Operation.builds_reloadFile) (fun _ => rfl)
      fun _ => rfl
  | reloadIfChanged read w =>
    rw [Operation.perform, Watch.value_reloadIfChangedFrom]
    split
    next hchanged =>
      refine hs.turn_attempt (fun result => .reloadIfChanged (some result)) ?_ (fun _ => rfl)
        fun _ => rfl
      intro b
      rw [Operation.builds_reloadIfChanged]
      exact and_iff_right hchanged
    next hchanged =>
      refine .refused rfl ?_
      intro b hb
      exact hchanged (Operation.builds_reloadIfChanged.1 hb).1
  | replace b =>
    refine .replaced (s := ⟨h.active.next, b⟩) ?_
    intro old hold
    exact Nat.ne_of_lt (hs.lt_next old hold)
  | current => exact .asked
  | matchesPress press c => exact .matched

/-- A snapshot that is handed out has been in use before or is in use afterwards. -/
theorem Sound.handed_mem {h : History} (hs : h.Sound) {op : Operation} {s : Snapshot}
    (hhanded : (op.perform h.active).1.handed? = some s) : s ∈ (h.next op).used := by
  have hcurrent : h.active.current ∈ (h.next op).used := List.mem_cons_of_mem _ hs.current_mem
  have hnext : (op.perform h.active).2.current ∈ (h.next op).used := List.mem_cons_self
  have hturn := hs.turn op
  generalize (op.perform h.active).1 = answer at hturn hhanded
  generalize (op.perform h.active).2.current = after at hturn hnext
  cases hturn with
  | refused hanswer _ =>
    rw [Answer.handed?_of_isRefusal hanswer] at hhanded
    cases hhanded
  | reloaded _ _ hanswer =>
    rw [Answer.handed?_of_reloaded? hanswer] at hhanded
    exact Option.some.inj hhanded ▸ hnext
  | replaced _ => exact Option.some.inj hhanded ▸ hcurrent
  | asked => exact Option.some.inj hhanded ▸ hcurrent
  | matched => cases hhanded

/-- Over whole runs a reload is all or nothing. An operation that is refused leaves the snapshot in
use as it is; a reload that succeeds puts in use, and hands out, a new snapshot of exactly what is
built from the configuration that it gets; a replacement puts its bindings in use and hands out the
snapshot that was in use. Whatever happens afterwards, behind a snapshot that has been handed out
stand the bindings that it had. -/
theorem turn_and_bindings_of_run (b : Bindings) (before : List Operation) (op : Operation)
    (after : List Operation) :
    Turn ((start b).run before) op (op.perform ((start b).run before).active).1
        (op.perform ((start b).run before).active).2.current ∧
      ∀ s, (op.perform ((start b).run before).active).1.handed? = some s →
        ((start b).run (before ++ op :: after)).bindings? s.number = some s.bindings := by
  have hs : ((start b).run before).Sound := (sound_start b).run before
  refine ⟨hs.turn op, ?_⟩
  intro s hhanded
  have hrun : (start b).run (before ++ op :: after) =
      (((start b).run before).next op).run after := List.foldl_append
  rw [hrun]
  exact ((hs.next op).run after).bindings?_eq (mem_used_run (hs.handed_mem hhanded) after)

end History

end Keymap.Active

import Keymap.Proofs.Traversal
import Keymap.Watch

/-! # What a reload comes to

Every way of reloading is an attempt to put bindings in use: the ways differ in where
the bindings come from, and what the attempt leaves behind depends on their being
there or not.
-/
namespace Keymap

namespace ConfigFile

def build (path : Text) (reading : Reading) : Except ConfigError Bindings := do
  let config ← ofReading path reading
  (Bindings.build config).mapError .bindings

theorem value_run_loadBindings (t : FileTree) (path : Text) :
    (loadBindings t path).run.value = build path (t.read path) := by
  rw [loadBindings, ExceptT.run_mk, build, load]
  cases ofReading path (t.read path) <;> rfl

theorem build_eq_ok_iff {path : Text} {reading : Reading} {b : Bindings} :
    build path reading = .ok b ↔
      ∃ config, ofReading path reading = .ok config ∧ Bindings.build config = .ok b := by
  have hmap (config : Config) : (Bindings.build config).mapError ConfigError.bindings = .ok b ↔
      Bindings.build config = .ok b := by
    cases Bindings.build config <;> simp [Except.mapError]
  simp only [build, Traversal.bind_eq_ok_iff, hmap]

end ConfigFile

namespace Active

variable {ε : Type}

def attempt (a : Active) : Except ε Bindings → Except ε Snapshot × Active
  | .ok b => (.ok (a.install b).current, a.install b)
  | .error cause => (.error cause, a)

@[simp] theorem attempt_ok (a : Active) (b : Bindings) :
    a.attempt (.ok b : Except ε Bindings) = (.ok (a.install b).current, a.install b) := rfl

@[simp] theorem attempt_error (a : Active) (cause : ε) :
    a.attempt (.error cause) = (.error cause, a) := rfl

theorem value_reload (a : Active) (config : Config) :
    (a.reload config).value = a.attempt (Bindings.build config) := by
  rw [reload, Logged.value_bind, Bindings.build]
  cases (Bindings.assemble config).run.value <;> rfl

theorem value_reloadReading (a : Active) (path : Text) (reading : Reading) :
    (a.reloadReading path reading).value = a.attempt (ConfigFile.build path reading) := by
  rw [reloadReading, ConfigFile.build]
  cases ConfigFile.ofReading path reading with
  | error cause => rfl
  | ok config =>
    dsimp only
    rw [Logged.value_bind, value_reload]
    cases h : Bindings.build config <;> simp [bind, Except.bind, h, Except.mapError]

/-- A reload from a file succeeds if the file can be read and its patterns make bindings, which are
in use afterwards. -/
theorem value_reloadFile_eq_ok_iff {a after : Active} {t : FileTree} {path : Text} {s : Snapshot} :
    (a.reloadFile t path).value = (.ok s, after) ↔
      ∃ config b, ConfigFile.load t path = .ok config ∧ Bindings.build config = .ok b ∧
        after = a.install b ∧ s = after.current := by
  rw [reloadFile, value_reloadReading]
  constructor
  · intro h
    cases hbuild : ConfigFile.build path (t.read path) with
    | error cause =>
      rw [hbuild] at h
      cases h
    | ok b =>
      obtain ⟨config, hload, hb⟩ := ConfigFile.build_eq_ok_iff.1 hbuild
      rw [hbuild] at h
      cases h
      exact ⟨config, b, hload, hb, rfl, rfl⟩
  · rintro ⟨config, b, hload, hb, rfl, rfl⟩
    rw [ConfigFile.build_eq_ok_iff.2 ⟨config, hload, hb⟩]
    rfl

end Active

namespace Watch

/-- The notification tells that something with the name of the path has been created or modified. -/
inductive Announces (path : Text) : Notification → Prop
  | event {kind paths p} (hkind : kind = .create ∨ kind = .modify) (hp : p ∈ paths)
      (hname : Path.fileName? p = Path.fileName? path) : Announces path (.event kind paths)

theorem isRelevant_iff {w : Watch} {n : Notification} : w.isRelevant n ↔ Announces w.path n := by
  cases n with
  | event kind paths =>
    rw [isRelevant, Bool.and_eq_true, Bool.or_eq_true, beq_iff_eq, beq_iff_eq, List.any_eq_true]
    constructor
    · rintro ⟨hkind, p, hp, hname⟩
      exact .event hkind hp (beq_iff_eq.1 hname)
    · rintro ⟨hkind, hp, hname⟩
      exact ⟨hkind, _, hp, beq_iff_eq.2 hname⟩
  | failure =>
    constructor
    · intro h
      cases h
    · rintro ⟨⟩

theorem changed_fst_iff {w : Watch} : w.changed.1 ↔ ∃ n ∈ w.queue, Announces w.path n := by
  simp [changed, isRelevant_iff]

@[simp] theorem queue_deliver (w : Watch) (n : Notification) :
    (w.deliver n).queue = w.queue ++ [n] := rfl

@[simp] theorem path_changed (w : Watch) : w.changed.2.path = w.path := rfl

theorem value_reloadIfChangedFrom (w : Watch) (a : Active) (read : Text → Reading) :
    (w.reloadIfChangedFrom a read).value =
      if w.changed.1 then
        (some (a.attempt (ConfigFile.build w.path (read w.path))).1, w.changed.2,
          (a.attempt (ConfigFile.build w.path (read w.path))).2)
      else (none, w.changed.2, a) := by
  have h := a.value_reloadReading w.path (read w.path)
  rw [reloadIfChangedFrom, ← h, changed]
  cases w.queue.any w.isRelevant <;> rfl

end Watch

end Keymap

import Keymap.Proofs.Active.Reload
import Keymap.Proofs.Bindings.Outcome

/-! # What the log of a reload tells

Each category that is assembled leaves one event, and then a reload tells how it ended: why
the configuration was rejected, or which chords are contested among the bindings that are in
use now. Main statement: the log of a reload is this and nothing else, and a reload from a
file warns once if it fails, wherever it fails.
-/
namespace Keymap

namespace Logged

variable {ω ε α β : Type}

theorem events_run_bind (x : ExceptT ε (Logged ω) α) (f : α → ExceptT ε (Logged ω) β) :
    (x >>= f).run.events = x.run.events ++
      match x.run.value with
      | .ok a => (f a).run.events
      | .error _ => [] := by
  rw [ExceptT.run_bind, events_bind]
  cases x.run.value <;> rfl

theorem events_run_bind_of_ok {x : ExceptT ε (Logged ω) α} {a : α} (h : x.run.value = .ok a)
    (f : α → ExceptT ε (Logged ω) β) :
    (x >>= f).run.events = x.run.events ++ (f a).run.events := by
  rw [events_run_bind, h]

theorem events_run_bind_pure (x : ExceptT ε (Logged ω) α) (g : α → β) :
    (do let a ← x; return g a : ExceptT ε (Logged ω) β).run.events = x.run.events := by
  rw [events_run_bind]
  cases x.run.value <;> simp

theorem events_run_bind_congr {x : ExceptT ε (Logged ω) α} {γ : Type}
    {f : α → ExceptT ε (Logged ω) β} {g : α → ExceptT ε (Logged ω) γ}
    (h : ∀ a, (f a).run.events = (g a).run.events) :
    (x >>= f).run.events = (x >>= g).run.events := by
  simp only [events_run_bind, h]

/-- Elements that succeed leave their records, and what comes after them goes on as if alone. -/
theorem events_run_mapM_append {f : α → ExceptT ε (Logged ω) β} {xs : List α}
    (h : ∀ x ∈ xs, ∃ y, (f x).run.value = .ok y) (ys : List α) :
    ((xs ++ ys).mapM f).run.events =
      xs.flatMap (fun x => (f x).run.events) ++ (ys.mapM f).run.events := by
  induction xs with
  | nil => rfl
  | cons x xs ih =>
    obtain ⟨y, hy⟩ := h x List.mem_cons_self
    have hrest := ih fun z hz => h z (List.mem_cons_of_mem x hz)
    rw [List.cons_append, List.mapM_cons, events_run_bind_of_ok hy, events_run_bind_pure, hrest,
      List.flatMap_cons, List.append_assoc]

end Logged

theorem ByCategory.events_run_ofFunM {ω ε α : Type} (f : Category → ExceptT ε (Logged ω) α) :
    (ofFunM f).run.events = (Category.all.mapM f).run.events := by
  simp only [ofFunM, Category.all, List.mapM_cons, List.mapM_nil]
  refine Logged.events_run_bind_congr fun commit => ?_
  rw [Logged.events_run_bind_pure]
  refine Logged.events_run_bind_congr fun trigger => ?_
  rw [Logged.events_run_bind_pure]
  refine Logged.events_run_bind_congr fun newline => ?_
  simp only [Logged.events_run_bind_pure, pure_bind]

namespace Category

/-- What the assembly of a category leaves on record: that it has no pattern of its own, or how many
chords it gets from its patterns. -/
inductive Records (c : Category) (patterns : List Text) : Event → Prop
  | defaultsUsed (h : ∀ p ∈ patterns, Pattern.isBlank p) : Records c patterns (.defaultsUsed c)
  | patternsConfigured {p chords} (hp : p ∈ patterns) (hblank : ¬ Pattern.isBlank p)
      (h : c.Gets patterns chords) : Records c patterns (.patternsConfigured c chords.length)

variable {c : Category} {patterns : List Text}

theorem Records.level_eq {event : Event} (h : c.Records patterns event) : event.level = .debug := by
  cases h <;> rfl

theorem chordsOf_eq_error_iff {e : BindingError} :
    c.chordsOf patterns = .error e ↔ ∃ before p after cause, patterns = before ++ p :: after ∧
      (∀ q ∈ before, ∃ chord, Pattern.chord q = .ok chord) ∧ Pattern.chord p = .error cause ∧
        e = .invalidPattern c p cause := by
  simp only [chordsOf, Traversal.bind_pure, Traversal.map_eq_error_iff,
    Traversal.mapM_eq_error_iff, chordOf_eq_ok_iff, chordOf_eq_error_iff, exists_and_left]

theorem events_assemble_of_error {e : BindingError} (h : c.chordsOf patterns = .error e) :
    (c.assemble patterns).run.events = [] := by
  rw [assemble, h]
  rfl

theorem exists_records_of_chordsOf {chords : ChordList} (h : c.chordsOf patterns = .ok chords) :
    ∃ event, (c.assemble patterns).run.events = [event] ∧ c.Records patterns event := by
  have hchords := (chordsOf_eq_ok_iff.1 h).2
  rw [assemble, h]
  cases chords with
  | nil =>
    have hnone := List.forall₂_nil_right_iff.1 hchords
    exact ⟨.defaultsUsed c, rfl, .defaultsUsed (by simpa using hnone)⟩
  | cons chord chords =>
    obtain ⟨p, _, -, -, hfilter⟩ := List.forall₂_cons_right_iff.1 hchords
    have hp : p ∈ patterns.filter fun p => !Pattern.isBlank p := hfilter ▸ List.mem_cons_self
    obtain ⟨hmem, hblank⟩ := List.mem_filter.1 hp
    have hgets : c.Gets patterns (chord :: chords) := .configured (List.cons_ne_nil _ _) hchords
    exact ⟨_, rfl, .patternsConfigured hmem (by simpa using hblank) hgets⟩

/-- Categories that are assembled leave one event each, in their order. -/
theorem records_of_chordsOf {config : Config} {cs : List Category}
    (h : ∀ c ∈ cs, ∃ chords, c.chordsOf (config.get c) = .ok chords) :
    List.Forall₂ (fun c event => c.Records (config.get c) event) cs
      (cs.flatMap fun c => (c.assemble (config.get c)).run.events) := by
  induction cs with
  | nil => exact .nil
  | cons c cs ih =>
    obtain ⟨chords, hchords⟩ := h c List.mem_cons_self
    obtain ⟨event, hevent, hrecords⟩ := exists_records_of_chordsOf hchords
    rw [List.flatMap_cons, hevent]
    exact .cons hrecords (ih fun d hd => h d (List.mem_cons_of_mem c hd))

theorem exists_value_assemble_iff :
    (∃ chords, (c.assemble patterns).run.value = .ok chords) ↔
      ∃ chords, c.chordsOf patterns = .ok chords := by
  simp only [value_assemble, Traversal.map_eq_ok_iff]
  exact ⟨fun ⟨_, chords, h, _⟩ => ⟨chords, h⟩, fun ⟨chords, h⟩ => ⟨_, chords, h, rfl⟩⟩

end Category

namespace Bindings

/-- The record of assembled categories with what follows them. -/
theorem events_assemble {config : Config} {earlier later : List Category}
    (hall : Category.all = earlier ++ later)
    (h : ∀ c ∈ earlier, ∃ chords, c.chordsOf (config.get c) = .ok chords) :
    (assemble config).run.events =
      (earlier.flatMap fun c => (c.assemble (config.get c)).run.events) ++
        (later.mapM fun c : Category => c.assemble (config.get c)).run.events := by
  rw [assemble, ByCategory.events_run_ofFunM, hall]
  exact Logged.events_run_mapM_append (fun c hc => Category.exists_value_assemble_iff.2 (h c hc)) _

theorem events_assemble_of_build {config : Config} {b : Bindings} (h : build config = .ok b) :
    List.Forall₂ (fun c event => c.Records (config.get c) event) Category.all
      (assemble config).run.events := by
  have hchords : ∀ c ∈ Category.all, ∃ chords, c.chordsOf (config.get c) = .ok chords := by
    intro c _
    obtain ⟨chords, hc, -⟩ := Traversal.map_eq_ok_iff.1 (build_eq_ok_iff.1 h c)
    exact ⟨chords, hc⟩
  rw [events_assemble (List.append_nil _).symm hchords, List.mapM_nil, ExceptT.run_pure,
    Logged.events_pure, List.append_nil]
  exact Category.records_of_chordsOf hchords

/-- Where a category cannot be assembled, those before it are on record. -/
theorem events_assemble_of_error {config : Config} {earlier later : List Category} {c : Category}
    (hall : Category.all = earlier ++ c :: later)
    (h : ∀ d ∈ earlier, ∃ chords, d.chordsOf (config.get d) = .ok chords) {e : BindingError}
    (hc : c.chordsOf (config.get c) = .error e) :
    List.Forall₂ (fun d event => d.Records (config.get d) event) earlier
      (assemble config).run.events := by
  have hvalue : (c.assemble (config.get c)).run.value = .error e := by
    rw [Category.value_assemble, hc]
    rfl
  rw [events_assemble hall h, List.mapM_cons, Logged.events_run_bind, hvalue,
    Category.events_assemble_of_error hc, List.append_nil, List.append_nil]
  exact Category.records_of_chordsOf h

/-- The first failure is that of the first category that has one. -/
theorem exists_chordsOf_eq_error {config : Config} {e : BindingError}
    (h : build config = .error e) :
    ∃ earlier c later, Category.all = earlier ++ c :: later ∧
      (∀ d ∈ earlier, ∃ chords, d.chordsOf (config.get d) = .ok chords) ∧
        c.chordsOf (config.get c) = .error e := by
  rw [build, assemble, ByCategory.value_run_ofFunM, ByCategory.ofFunM_eq_error_iff,
    Traversal.mapM_eq_error_iff] at h
  obtain ⟨earlier, c, later, hall, hok, hc⟩ := h
  rw [Category.value_assemble, Traversal.map_eq_error_iff] at hc
  exact ⟨earlier, c, later, hall, fun d hd => Category.exists_value_assemble_iff.1 (hok d hd), hc⟩

end Bindings

namespace Event

def ofLevel (l : Level) (log : List Event) : List Event := log.filter fun event => event.level == l

theorem ofLevel_append (l : Level) (log log' : List Event) :
    ofLevel l (log ++ log') = ofLevel l log ++ ofLevel l log' := List.filter_append _ _

theorem ofLevel_eq {k : Level} {log : List Event} (h : ∀ event ∈ log, event.level = k) (l : Level) :
    ofLevel l log = if k = l then log else [] := by
  rw [ofLevel]
  split
  next hkl =>
    rw [List.filter_eq_self]
    intro event hevent
    rw [h event hevent, hkl, beq_self_eq_true]
  next hkl =>
    rw [List.filter_eq_nil_iff]
    intro event hevent
    rwa [h event hevent, beq_iff_eq]

end Event

namespace Active

/-- The categories that a reload assembles: all of them, or those before the first one with a
pattern that stands for nothing. -/
inductive Assembles (config : Config) : Except BindingError Snapshot → List Category → Prop
  | all {s} (hb : Bindings.build config = .ok s.bindings) : Assembles config (.ok s) Category.all
  | before {earlier c later before p after cause} (hall : Category.all = earlier ++ c :: later)
      (hearlier : ∀ d ∈ earlier, ∀ q ∈ config.get d, ∃ chord, Pattern.chord q = .ok chord)
      (hc : config.get c = before ++ p :: after)
      (hbefore : ∀ q ∈ before, ∃ chord, Pattern.chord q = .ok chord)
      (hp : Pattern.chord p = .error cause) :
      Assembles config (.error (.invalidPattern c p cause)) earlier

/-- What a reload warns of by its result: each contested chord, or why it was rejected. -/
def warnings : Except BindingError Snapshot → List Event
  | .ok s => s.bindings.conflicts.map .chordContested
  | .error cause => [.bindingsRejected cause]

def notices : Except BindingError Snapshot → List Event
  | .ok _ => [.bindingsReloaded]
  | .error _ => []

structure Tells (config : Config) (result : Except BindingError Snapshot) (log : List Event) :
    Prop where
  eq_append : log =
    Event.ofLevel .debug log ++ (Event.ofLevel .warn log ++ Event.ofLevel .info log)
  debug : ∃ cs, Assembles config result cs ∧
    List.Forall₂ (fun c event => c.Records (config.get c) event) cs (Event.ofLevel .debug log)
  warn : Event.ofLevel .warn log = warnings result
  info : Event.ofLevel .info log = notices result

theorem level_of_mem_warnings {result : Except BindingError Snapshot} :
    ∀ event ∈ warnings result, event.level = .warn := by
  intro event hevent
  cases result with
  | ok s =>
    obtain ⟨x, -, rfl⟩ := List.mem_map.1 hevent
    rfl
  | error cause =>
    rw [List.mem_singleton.1 hevent]
    rfl

theorem level_of_mem_notices {result : Except BindingError Snapshot} :
    ∀ event ∈ notices result, event.level = .info := by
  intro event hevent
  cases result with
  | ok s =>
    rw [List.mem_singleton.1 hevent]
    rfl
  | error cause => cases hevent

theorem tells_append {config : Config} {result : Except BindingError Snapshot} {cs : List Category}
    {records : List Event} (hcs : Assembles config result cs)
    (h : List.Forall₂ (fun c event => c.Records (config.get c) event) cs records) :
    Tells config result (records ++ (warnings result ++ notices result)) := by
  have hrecords : ∀ event ∈ records, event.level = .debug := by
    intro event hevent
    obtain ⟨c, -, hc⟩ := Traversal.exists_mem_of_forall₂ h.flip hevent
    exact hc.level_eq
  have hlevel (l : Event.Level) :
      Event.ofLevel l (records ++ (warnings result ++ notices result)) =
        (if .debug = l then records else []) ++
          ((if .warn = l then warnings result else []) ++
            if .info = l then notices result else []) := by
    rw [Event.ofLevel_append, Event.ofLevel_append, Event.ofLevel_eq hrecords,
      Event.ofLevel_eq level_of_mem_warnings, Event.ofLevel_eq level_of_mem_notices]
  refine ⟨by simp [hlevel], ⟨cs, hcs, ?_⟩, by simp [hlevel], by simp [hlevel]⟩
  simpa [hlevel] using h

theorem events_reload (a : Active) (config : Config) :
    (a.reload config).events = (Bindings.assemble config).run.events ++
      (warnings (a.reload config).value.1 ++ notices (a.reload config).value.1) := by
  rw [value_reload, reload, Logged.events_bind, Bindings.build]
  cases (Bindings.assemble config).run.value <;> rfl

theorem exists_assembles (a : Active) (config : Config) :
    ∃ cs, Assembles config (a.reload config).value.1 cs ∧
      List.Forall₂ (fun c event => c.Records (config.get c) event) cs
        (Bindings.assemble config).run.events := by
  rw [value_reload]
  cases hbuild : Bindings.build config with
  | ok b => exact ⟨_, .all hbuild, Bindings.events_assemble_of_build hbuild⟩
  | error e =>
    obtain ⟨earlier, c, later, hall, hearlier, hc⟩ := Bindings.exists_chordsOf_eq_error hbuild
    obtain ⟨before, p, after, cause, hpatterns, hbefore, hp, rfl⟩ :=
      Category.chordsOf_eq_error_iff.1 hc
    refine ⟨earlier, .before hall ?_ hpatterns hbefore hp,
      Bindings.events_assemble_of_error hall hearlier hc⟩
    intro d hd
    obtain ⟨chords, hchords⟩ := hearlier d hd
    exact (Category.chordsOf_eq_ok_iff.1 hchords).1

theorem tells_reload (a : Active) (config : Config) :
    Tells config (a.reload config).value.1 (a.reload config).events := by
  obtain ⟨cs, hcs, h⟩ := a.exists_assembles config
  rw [events_reload]
  exact tells_append hcs h

theorem reloadReading_of_error (a : Active) {path : Text} {reading : Reading} {cause : ConfigError}
    (h : ConfigFile.ofReading path reading = .error cause) :
    a.reloadReading path reading = ⟨[.fileUnreadable path cause], (.error cause, a)⟩ := by
  rw [reloadReading, h]
  rfl

theorem events_reloadReading_of_ok (a : Active) {path : Text} {reading : Reading} {config : Config}
    (h : ConfigFile.ofReading path reading = .ok config) :
    (a.reloadReading path reading).events = (a.reload config).events := by
  rw [reloadReading, h]
  exact List.append_nil _

theorem fst_value_reloadReading_of_ok (a : Active) {path : Text} {reading : Reading}
    {config : Config} (h : ConfigFile.ofReading path reading = .ok config) :
    (a.reloadReading path reading).value.1 = (a.reload config).value.1.mapError .bindings := by
  rw [reloadReading, h]
  rfl

/-- The log of a reload tells exactly what happened. One detail for each category that is assembled,
in their order, says whether the category has its defaults or how many chords; then comes one
warning for the rejection, or one for each contested chord and the notice that the bindings are in
use. A reload from a file, whatever is read there, warns once of the error that it returns, and of
contested chords only if it succeeds. -/
theorem tells_reload_and_warns_reloadReading (a : Active) :
    (∀ config, Tells config (a.reload config).value.1 (a.reload config).events) ∧
      ∀ path reading,
        match (a.reloadReading path reading).value.1 with
        | .ok s => Event.ofLevel .warn (a.reloadReading path reading).events =
            s.bindings.conflicts.map .chordContested
        | .error cause => ∃ warning,
            Event.ofLevel .warn (a.reloadReading path reading).events = [warning] ∧
              ("error", cause.message) ∈ warning.fields := by
  refine ⟨a.tells_reload, ?_⟩
  intro path reading
  cases hread : ConfigFile.ofReading path reading with
  | error cause =>
    rw [a.reloadReading_of_error hread]
    exact ⟨.fileUnreadable path cause, rfl, List.mem_cons_of_mem _ (List.mem_singleton_self _)⟩
  | ok config =>
    rw [a.fst_value_reloadReading_of_ok hread, a.events_reloadReading_of_ok hread,
      (a.tells_reload config).warn]
    cases (a.reload config).value.1 with
    | ok s => rfl
    | error cause => exact ⟨.bindingsRejected cause, rfl, List.mem_singleton_self _⟩

/-- The third category is rejected: those before it are on record, the one behind it is not. -/
example : (Active.default.reload
    ⟨["Enter".toList, [], "Tab".toList], [[]], ["Hyper".toList], ["F3".toList]⟩).events =
      [.patternsConfigured .commitCompletion 2, .defaultsUsed .triggerCompletionList,
        .bindingsRejected
          (.invalidPattern .insertNewline "Hyper".toList (.unrecognized "Hyper".toList))] := by
  decide +kernel

end Active

end Keymap

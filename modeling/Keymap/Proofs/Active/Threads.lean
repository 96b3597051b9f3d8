import Keymap.Proofs.Active.Runs

/-! # Threads that share the active bindings

A thread makes one call after the other. A reload builds its bindings and looks for
conflicts while other threads go on; only the exchange of the snapshot in use and the
copying of it are single steps on what is shared. Main statements: each step takes a
call on from where it stands to its end, what it does to the shared bindings is what
the operation of the call does, and a call that nobody interrupts is that operation.
-/
namespace Keymap.Threads

open Active (Operation Answer)

inductive Call where
  | reload (config : Config)
  | replace (bindings : Bindings)
  | current
  | matchesPress (press : KeyPress) (c : Category)

/-- The same call where there are no other threads. -/
def Call.operation : Call → Operation
  | reload config => .reload config
  | replace bindings => .replace bindings
  | current => .current
  | matchesPress press c => .matchesPress press c

inductive Phase where
  | idle
  | entered (call : Call)
  /-- The bindings of a reload are complete, and its conflicts are to be reported. -/
  | built (config : Config) (bindings : Bindings)
  | scanned (config : Config) (bindings : Bindings)
  /-- The press is to be compared with the copy that has been taken. -/
  | copied (s : Snapshot) (press : KeyPress) (c : Category)
  | settled (call : Call) (answer : Answer)

/-- What a step leaves on record. An exchange takes `old` out of use and puts `new` in use. -/
inductive Mark where
  | enter (call : Call)
  | refuse (config : Config) (cause : BindingError)
  | reload (config : Config) (old new : Snapshot)
  | replace (old new : Snapshot)
  | current (s : Snapshot)
  | matchesPress (press : KeyPress) (c : Category) (s : Snapshot)
  | leave (call : Call) (answer : Answer)

namespace Mark

def exchange? : Mark → Option (Snapshot × Snapshot)
  | reload _ old new | replace old new => some (old, new)
  | _ => none

def copy? : Mark → Option Snapshot
  | current s | matchesPress _ _ s => some s
  | _ => none

/-- The call that takes effect at the step, and the answer that it will give. -/
def effect? : Mark → Option (Call × Answer)
  | refuse config cause => some (.reload config, .reload (.error cause))
  | reload config _ new => some (.reload config, .reload (.ok new))
  | replace old new => some (.replace new.bindings, .snapshot old)
  | current s => some (.current, .snapshot s)
  | matchesPress press c s =>
    some (.matchesPress press c, .triggered (s.bindings.matchesPress press c))
  | enter _ | leave _ _ => none

/-- What a reload takes out of use, which nobody gets. -/
def dropped? : Mark → Option Snapshot
  | reload _ old _ => some old
  | _ => none

def replaced? : Mark → Option Snapshot
  | replace old _ => some old
  | _ => none

def returned? : Mark → Option Snapshot
  | leave (.replace _) (.snapshot s) => some s
  | _ => none

end Mark

/-- One step of a thread: what it does to its phase, to the bindings in use and to the record. -/
inductive Moves (a : Active) : Phase → List Mark → Phase → Active → Prop
  | enter (call : Call) : Moves a .idle [.enter call] (.entered call) a
  | refuse {config cause} (h : Bindings.build config = .error cause) :
      Moves a (.entered (.reload config)) [.refuse config cause]
        (.settled (.reload config) (.reload (.error cause))) a
  | build {config b} (h : Bindings.build config = .ok b) :
      Moves a (.entered (.reload config)) [] (.built config b) a
  | scan {config b} : Moves a (.built config b) [] (.scanned config b) a
  | install {config b} :
      Moves a (.scanned config b) [.reload config a.current (a.install b).current]
        (.settled (.reload config) (.reload (.ok (a.install b).current))) (a.install b)
  | replace {b} :
      Moves a (.entered (.replace b)) [.replace (a.replace b).1 (a.replace b).2.current]
        (.settled (.replace b) (.snapshot (a.replace b).1)) (a.replace b).2
  | current :
      Moves a (.entered .current) [.current a.current] (.settled .current (.snapshot a.current)) a
  | copy {press c} :
      Moves a (.entered (.matchesPress press c)) [.matchesPress press c a.current]
        (.copied a.current press c) a
  | compare {s press c} :
      Moves a (.copied s press c) []
        (.settled (.matchesPress press c) (.triggered (s.bindings.matchesPress press c))) a
  | leave {call answer} : Moves a (.settled call answer) [.leave call answer] .idle a

/-- The marks of a call from its beginning to its end. A reload that fails exchanges nothing; one
that succeeds puts in use what it has built, and a replacement returns what it takes out of use. -/
inductive Round : List Mark → Prop
  | refused {config cause} (h : Bindings.build config = .error cause) :
      Round [.enter (.reload config), .refuse config cause,
        .leave (.reload config) (.reload (.error cause))]
  | reloaded {config old new} (h : Bindings.build config = .ok new.bindings) :
      Round [.enter (.reload config), .reload config old new,
        .leave (.reload config) (.reload (.ok new))]
  | replaced {old new : Snapshot} :
      Round [.enter (.replace new.bindings), .replace old new,
        .leave (.replace new.bindings) (.snapshot old)]
  | copied {s} : Round [.enter .current, .current s, .leave .current (.snapshot s)]
  | matched {press c s} :
      Round [.enter (.matchesPress press c), .matchesPress press c s,
        .leave (.matchesPress press c) (.triggered (s.bindings.matchesPress press c))]

inductive Pending : Phase → List Mark → Prop
  | idle : Pending .idle []
  | entered {call} : Pending (.entered call) [.enter call]
  | built {config b} (h : Bindings.build config = .ok b) :
      Pending (.built config b) [.enter (.reload config)]
  | scanned {config b} (h : Bindings.build config = .ok b) :
      Pending (.scanned config b) [.enter (.reload config)]
  | copied {s press c} :
      Pending (.copied s press c) [.enter (.matchesPress press c), .matchesPress press c s]
  | settled {call answer marks} (h : Round (marks ++ [.leave call answer])) :
      Pending (.settled call answer) marks

def Rounds (marks : List Mark) (p : Phase) : Prop :=
  ∃ rounds pending, marks = List.flatten rounds ++ pending ∧ (∀ r ∈ rounds, Round r) ∧
    Pending p pending

/-- Calls made one after the other by one thread alone: their answers and what they leave. -/
def replay (a : Active) : List Call → List Answer × Active
  | [] => ([], a)
  | call :: calls =>
    let first := call.operation.perform a
    let others := replay first.2 calls
    (first.1 :: others.1, others.2)

theorem replay_append (a : Active) (calls others : List Call) :
    replay a (calls ++ others) =
      ((replay a calls).1 ++ (replay (replay a calls).2 others).1,
        (replay (replay a calls).2 others).2) := by
  induction calls generalizing a with
  | nil => rfl
  | cons call calls ih => simp [replay, ih]

/-- Each call gives the answer of the operation that it is and leaves what that leaves. -/
theorem Moves.replay {a a' : Active} {p p' : Phase} {marks pending : List Mark}
    (h : Moves a p marks p' a') (hp : Pending p pending) :
    replay a ((marks.filterMap Mark.effect?).map Prod.fst) =
      ((marks.filterMap Mark.effect?).map Prod.snd, a') := by
  cases h with
  | refuse h =>
    simp [Mark.effect?, Threads.replay, Call.operation, Operation.perform, Active.value_reload, h]
  | install =>
    cases hp with
    | scanned h =>
      simp [Mark.effect?, Threads.replay, Call.operation, Operation.perform, Active.value_reload, h]
  | _ => rfl

theorem Moves.pending {a a' : Active} {p p' : Phase} {marks pending : List Mark}
    (h : Moves a p marks p' a') (hp : Pending p pending) :
    Pending p' (pending ++ marks) ∨ (p' = .idle ∧ Round (pending ++ marks)) := by
  cases h with
  | enter call =>
    cases hp
    exact Or.inl .entered
  | refuse h =>
    cases hp
    exact Or.inl (.settled (.refused h))
  | build h =>
    cases hp
    exact Or.inl (.built h)
  | scan =>
    cases hp with
    | built h => exact Or.inl (.scanned h)
  | install =>
    cases hp with
    | scanned h => exact Or.inl (.settled (.reloaded h))
  | @replace b =>
    cases hp
    exact Or.inl (.settled (@Round.replaced a.current (a.install b).current))
  | current =>
    cases hp
    exact Or.inl (.settled .copied)
  | copy =>
    cases hp
    exact Or.inl .copied
  | compare =>
    cases hp
    exact Or.inl (.settled .matched)
  | leave =>
    cases hp with
    | settled h => exact Or.inr ⟨rfl, h⟩

theorem Moves.rounds {a a' : Active} {p p' : Phase} {marks before : List Mark}
    (h : Moves a p marks p' a') (hr : Rounds before p) : Rounds (before ++ marks) p' := by
  obtain ⟨rounds, pending, rfl, hrounds, hpending⟩ := hr
  rcases h.pending hpending with hnext | ⟨rfl, hround⟩
  · exact ⟨rounds, pending ++ marks, by simp, hrounds, hnext⟩
  · refine ⟨rounds ++ [pending ++ marks], [], by simp, ?_, .idle⟩
    intro r hr
    rcases List.mem_append.1 hr with hr | hr
    · exact hrounds r hr
    · rw [List.mem_singleton.1 hr]
      exact hround

/-- A finished replacement has returned what it has taken out of use. -/
theorem Round.returned {marks : List Mark} (h : Round marks) :
    marks.filterMap Mark.returned? = marks.filterMap Mark.replaced? := by
  cases h <;> rfl

theorem Rounds.returned {marks : List Mark} (h : Rounds marks .idle) :
    marks.filterMap Mark.returned? = marks.filterMap Mark.replaced? := by
  obtain ⟨rounds, pending, rfl, hrounds, hpending⟩ := h
  cases hpending
  rw [List.append_nil, List.filterMap_flatten, List.filterMap_flatten]
  congr 1
  apply List.map_congr_left
  intro r hr
  exact (hrounds r hr).returned

inductive Access (a : Active) (marks : List Mark) : Active → Prop
  | silent (hexchange : marks.filterMap Mark.exchange? = [])
      (hcopy : marks.filterMap Mark.copy? = []) : Access a marks a
  | copy (hexchange : marks.filterMap Mark.exchange? = [])
      (hcopy : marks.filterMap Mark.copy? = [a.current]) : Access a marks a
  | exchange {b} (hexchange : marks.filterMap Mark.exchange? =
        [(a.current, (a.install b).current)])
      (hcopy : marks.filterMap Mark.copy? = []) : Access a marks (a.install b)

theorem Moves.access {a a' : Active} {p p' : Phase} {marks : List Mark}
    (h : Moves a p marks p' a') : Access a marks a' := by
  cases h with
  | install => exact .exchange rfl rfl
  | replace => exact .exchange rfl rfl
  | current => exact .copy rfl rfl
  | copy => exact .copy rfl rfl
  | _ => exact .silent rfl rfl

inductive Path : Active → Phase → List Mark → Phase → Active → Prop
  | refl {a p} : Path a p [] p a
  | head {a a' a'' p p' p'' marks marks'} (hm : Moves a p marks p' a')
      (h : Path a' p' marks' p'' a'') : Path a p (marks ++ marks') p'' a''

/-- Every call can go on to its end, and comes to what its operation comes to. -/
theorem exists_path (a : Active) (call : Call) :
    ∃ marks, Round marks ∧ marks.getLast? = some (.leave call (call.operation.perform a).1) ∧
      Path a .idle marks .idle (call.operation.perform a).2 := by
  cases call with
  | reload config =>
    rw [Call.operation, Operation.perform, Active.value_reload]
    cases h : Bindings.build config with
    | error cause =>
      exact ⟨_, .refused h, rfl, .head (.enter _) (.head (.refuse h) (.head .leave .refl))⟩
    | ok b =>
      exact ⟨_, @Round.reloaded config a.current (a.install b).current h, rfl,
        .head (.enter _) (.head (.build h) (.head .scan (.head .install (.head .leave .refl))))⟩
  | replace b =>
    exact ⟨_, @Round.replaced a.current (a.install b).current, rfl,
      .head (.enter _) (.head .replace (.head .leave .refl))⟩
  | current => exact ⟨_, .copied, rfl, .head (.enter _) (.head .current (.head .leave .refl))⟩
  | matchesPress press c =>
    exact ⟨_, .matched, rfl,
      .head (.enter _) (.head .copy (.head .compare (.head .leave .refl)))⟩

end Keymap.Threads

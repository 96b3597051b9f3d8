import Keymap.Proofs.Active.Reload
import Mathlib.Data.List.Induction

/-! # Questions about a watched file

A watch is asked now and then whether its file has changed, on its own or in order to reload, and
notifications arrive in between. The queue decides the answer, and it holds what has been delivered
since the last question of either kind. Main statement: a question reports a change if and only if
one of these notifications announces it, and nothing is left for the next question.
-/
namespace Keymap.Watch

/-- A question whether the file has changed. A reload asks it first; `read` says what a path gives
to its reader then. -/
inductive Question where
  | changed
  | reload (a : Active) (read : Text → Reading)

namespace Question

def reports (w : Watch) : Question → Bool
  | changed => w.changed.1
  | reload a read => (w.reloadIfChangedFrom a read).value.1.isSome

def after (w : Watch) : Question → Watch
  | changed => w.changed.2
  | reload a read => (w.reloadIfChangedFrom a read).value.2.1

theorem reports_eq (w : Watch) (q : Question) : q.reports w = w.changed.1 := by
  cases q with
  | changed => rfl
  | reload a read =>
    rw [reports, value_reloadIfChangedFrom]
    cases w.changed.1 <;> rfl

theorem after_eq (w : Watch) (q : Question) : q.after w = w.changed.2 := by
  cases q with
  | changed => rfl
  | reload a read =>
    rw [after, value_reloadIfChangedFrom]
    cases w.changed.1 <;> rfl

end Question

/-- A reload that finds no change does not depend on what it would read, and leaves the bindings and
the record alone. -/
theorem reloadIfChangedFrom_of_not_changed {w : Watch} (h : w.changed.1 = false) (a : Active)
    (read : Text → Reading) : w.reloadIfChangedFrom a read = pure (none, w.changed.2, a) := by
  have hqueue : w.queue.any w.isRelevant = false := h
  rw [reloadIfChangedFrom, changed, hqueue]
  rfl

inductive Happening where
  | delivered (n : Notification)
  | asked (q : Question)

def happen (w : Watch) : Happening → Watch
  | .delivered n => w.deliver n
  | .asked q => q.after w

def run (w : Watch) (past : List Happening) : Watch := past.foldl happen w

/-- The notification has been delivered and no question has been asked since. -/
def Unasked (past : List Happening) (n : Notification) : Prop :=
  ∃ earlier since, past = earlier ++ .delivered n :: since ∧ ∀ q, .asked q ∉ since

theorem not_unasked_nil {n : Notification} : ¬ Unasked [] n := by
  rintro ⟨earlier, since, h, -⟩
  exact List.append_ne_nil_of_right_ne_nil earlier (List.cons_ne_nil _ _) h.symm

theorem unasked_concat {past : List Happening} {last : Happening} {n : Notification} :
    Unasked (past ++ [last]) n ↔ last = .delivered n ∨ Unasked past n ∧ ∀ q, last ≠ .asked q := by
  constructor
  · rintro ⟨earlier, since, hpast, hsince⟩
    cases since using List.reverseRecOn with
    | nil =>
      obtain ⟨-, hlast⟩ := List.append_inj' hpast rfl
      exact .inl (List.singleton_inj.1 hlast)
    | append_singleton since final =>
      rw [← List.cons_append, ← List.append_assoc] at hpast
      obtain ⟨hbefore, hlast⟩ := List.append_inj' hpast rfl
      obtain rfl := List.singleton_inj.1 hlast
      simp only [List.mem_append, List.mem_singleton, not_or] at hsince
      exact .inr ⟨⟨earlier, since, hbefore, fun q => (hsince q).1⟩,
        fun q hq => (hsince q).2 hq.symm⟩
  · rintro (rfl | ⟨⟨earlier, since, rfl, hsince⟩, hlast⟩)
    · exact ⟨past, [], rfl, fun q => List.not_mem_nil⟩
    · refine ⟨earlier, since ++ [last], by simp, ?_⟩
      intro q hq
      rcases List.mem_append.1 hq with hq | hq
      · exact hsince q hq
      · exact hlast q (List.mem_singleton.1 hq).symm

variable {w : Watch}

theorem run_concat (past : List Happening) (last : Happening) :
    w.run (past ++ [last]) = (w.run past).happen last := List.foldl_concat ..

theorem path_run (past : List Happening) : (w.run past).path = w.path := by
  induction past using List.reverseRecOn with
  | nil => rfl
  | append_singleton past last ih =>
    rw [run_concat, ← ih]
    cases last with
    | delivered n => rfl
    | asked q => rw [happen, Question.after_eq, path_changed]

theorem mem_queue_run_iff (hw : w.queue = []) {past : List Happening} {n : Notification} :
    n ∈ (w.run past).queue ↔ Unasked past n := by
  induction past using List.reverseRecOn with
  | nil => simpa [run, hw] using not_unasked_nil
  | append_singleton past last ih =>
    rw [run_concat, unasked_concat, ← ih]
    cases last with
    | delivered m => simp [happen, or_comm, eq_comm]
    | asked q => simp [happen, Question.after_eq, changed]

/-- A watch starts with an empty queue. -/
theorem path_and_queue_of_start {t : FileTree} {path : Text}
    (h : (start t path).value = .ok w) : w.path = path ∧ w.queue = [] := by
  rw [start] at h
  cases hplace : t.resolve (Path.directory path) with
  | error cause =>
    rw [hplace] at h
    cases h
  | ok place =>
    rw [hplace] at h
    cases h
    exact ⟨rfl, rfl⟩

/-- Each change is reported by one question. Whatever has been delivered and asked since a watch was
started, a question of either kind reports a change if and only if a notification that announces one
has been delivered since the last question. It empties the queue, so that no question right after
it reports a change, and a reload that reports none reads nothing and leaves the bindings as they
are. -/
theorem reports_iff_exists_unasked {t : FileTree} {path : Text}
    (hstart : (start t path).value = .ok w) (past : List Happening) (q : Question) :
    (q.reports (w.run past) ↔ ∃ n, Unasked past n ∧ Announces path n) ∧
      (q.after (w.run past)).queue = [] ∧
      (∀ again : Question, again.reports (q.after (w.run past)) = false) ∧
      ∀ a read, (Question.reload a read).reports (w.run past) = false →
        ∀ other, (w.run past).reloadIfChangedFrom a other =
          pure (none, (Question.reload a read).after (w.run past), a) := by
  obtain ⟨hpath, hqueue⟩ := path_and_queue_of_start hstart
  have hempty : (q.after (w.run past)).queue = [] := by
    rw [q.after_eq]
    rfl
  refine ⟨?_, hempty, ?_, ?_⟩
  · simp only [q.reports_eq, changed_fst_iff, mem_queue_run_iff hqueue, path_run, hpath]
  · intro again
    rw [again.reports_eq, changed, hempty]
    rfl
  · intro a read h other
    rw [Question.reports_eq] at h
    rw [Question.after_eq]
    exact reloadIfChangedFrom_of_not_changed h a other

def fresh : Watch := { path := "keys.conf".toList, root := "/.".toList, place? := some [] }

def modifiedAgain : List Happening :=
  [.delivered (.event .create [fresh.path]), .asked .changed, .delivered .failure,
    .delivered (.event .remove [fresh.path]),
    .delivered (.event .modify ["/./keys.bak".toList, "/./keys.conf".toList]),
    .delivered (.event .access [fresh.path])]

theorem reports_iff_exists_unasked_modifiedAgain :
    (start {} fresh.path).value = .ok fresh ∧ Question.changed.reports (fresh.run modifiedAgain) ∧
      ∀ again, Question.reports (fresh.run (modifiedAgain ++ [.asked .changed])) again = false := by
  have hstart : (start {} fresh.path).value = .ok fresh := rfl
  have hunasked : Unasked modifiedAgain
      (.event .modify ["/./keys.bak".toList, "/./keys.conf".toList]) := by
    refine ⟨modifiedAgain.take 4, modifiedAgain.drop 5, rfl, ?_⟩
    intro q hq
    cases List.mem_singleton.1 hq
  have hannounces : Announces fresh.path
      (.event .modify ["/./keys.bak".toList, "/./keys.conf".toList]) :=
    .event (.inr rfl) (List.mem_cons_of_mem _ List.mem_cons_self) (by decide +kernel)
  have h := reports_iff_exists_unasked hstart modifiedAgain .changed
  exact ⟨hstart, h.1.2 ⟨_, hunasked, hannounces⟩, h.2.2.1⟩

end Keymap.Watch

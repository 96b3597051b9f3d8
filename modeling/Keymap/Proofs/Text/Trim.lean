import Keymap.Text.Alphanumeric
import Keymap.Text.Blank
import Mathlib.Data.List.DropRight
import Mathlib.Data.List.TakeWhile

/-! # Trimmed texts, runs of characters and the pieces of a split

Trimming takes white space from the two ends and nothing else, a run is as long
as it can be, and the pieces of a split hold no separator. White space is apart
from letters and digits.
-/
namespace Keymap.Text

def blankCodes : List ℕ :=
  [9, 10, 11, 12, 13, 0x20, 0x85, 0xa0, 0x1680, 0x2000, 0x2001, 0x2002, 0x2003, 0x2004, 0x2005,
    0x2006, 0x2007, 0x2008, 0x2009, 0x200a, 0x2028, 0x2029, 0x202f, 0x205f, 0x3000]

theorem toNat_mem_blankCodes {c : Char} (h : isBlank c) : c.toNat ∈ blankCodes := by
  simp only [isBlank, Bool.or_eq_true, Bool.and_eq_true, decide_eq_true_eq, beq_iff_eq] at h
  simp only [blankCodes, List.mem_cons, List.not_mem_nil, or_false]
  omega

theorem isAlphanumeric_of_isBlank {c : Char} (h : isBlank c) : isAlphanumeric c = false := by
  have hall : ∀ n ∈ blankCodes, isAlphanumeric (Char.ofNat n) = false := by decide +kernel
  rw [← Char.ofNat_toNat c]
  exact hall c.toNat (toNat_mem_blankCodes h)

theorem not_isBlank_of_isAlphanum {c : Char} (h : c.isAlphanum = true) : ¬ isBlank c := by
  intro hb
  have hc := isAlphanumeric_of_isAlphanum c h
  rw [isAlphanumeric_of_isBlank hb] at hc
  cases hc

theorem trimEnd_eq_rdropWhile (s : Text) : trimEnd s = s.rdropWhile isBlank := rfl

theorem trim_eq_nil_iff (s : Text) : trim s = [] ↔ ∀ c ∈ s, isBlank c := by
  rw [trim, trimEnd_eq_rdropWhile, List.rdropWhile_eq_nil_iff]
  constructor
  · intro h c hc
    rw [← List.takeWhile_append_dropWhile (p := isBlank) (l := s), List.mem_append] at hc
    rcases hc with hc | hc
    · exact List.mem_takeWhile_imp hc
    · exact h c hc
  · intro h c hc
    exact h c (List.dropWhile_sublist _ |>.subset hc)

theorem isEmpty_trim_iff (s : Text) : (trim s).isEmpty = true ↔ ∀ c ∈ s, isBlank c := by
  rw [List.isEmpty_iff, trim_eq_nil_iff]

theorem trim_sublist (s : Text) : (trim s).Sublist s :=
  (List.rdropWhile_prefix isBlank _).sublist.trans (List.dropWhile_sublist _)

theorem mem_of_mem_trim {s : Text} {c : Char} (h : c ∈ trim s) : c ∈ s :=
  (trim_sublist s).subset h

/-- The last character that trimming leaves is not white space. -/
theorem not_isBlank_getLast_trim (s : Text) (h : trim s ≠ []) :
    ¬ isBlank ((trim s).getLast h) :=
  List.rdropWhile_last_not isBlank _ h

theorem trim_concat_of_isBlank {c : Char} (h : isBlank c) (s : Text) :
    trim (s ++ [c]) = trim s := by
  rw [trim, trim, trimStart, trimStart, List.dropWhile_append]
  by_cases hs : (s.dropWhile isBlank).isEmpty
  · rw [if_pos hs, List.isEmpty_iff.1 hs]
    simp [h]
  · rw [if_neg hs]
    exact List.rdropWhile_concat_pos isBlank _ c h

@[simp] theorem trim_trim (s : Text) : trim (trim s) = trim s := by
  have hstart : trimStart (trim s) = trim s := by
    cases ht : trim s with
    | nil => rfl
    | cons c t =>
      obtain ⟨after, hafter⟩ : trim s <+: s.dropWhile isBlank := List.rdropWhile_prefix isBlank _
      have hc := List.head?_dropWhile_not isBlank s
      rw [← hafter, ht] at hc
      exact List.dropWhile_cons_of_neg (by simpa using hc)
  rw [trim, hstart]
  exact List.rdropWhile_idempotent isBlank _

theorem trim_eq_self {s : Text} (h : ∀ c ∈ s, ¬ isBlank c) : trim s = s := by
  have hstart : trimStart s = s :=
    List.dropWhile_eq_self_iff.2 fun hl => h _ (List.getElem_mem hl)
  rw [trim, hstart, trimEnd_eq_rdropWhile, List.rdropWhile_eq_self_iff]
  intro hs
  exact h _ (List.getLast_mem hs)

/-- The text starts with the run `before` of such characters, and `after` continues with another
character or is empty. -/
structure Run (p : Char → Bool) (s before after : Text) : Prop where
  eq : s = before ++ after
  all : ∀ c ∈ before, p c = true
  ends : ∀ c ∈ after.head?, p c = false

theorem run_takeWhile (p : Char → Bool) (s : Text) : Run p s (s.takeWhile p) (s.dropWhile p) := by
  refine ⟨List.takeWhile_append_dropWhile.symm, fun c hc => List.mem_takeWhile_imp hc, ?_⟩
  intro c hc
  have h := List.head?_dropWhile_not p s
  rw [Option.mem_def.1 hc] at h
  exact h

theorem Run.takeWhile_eq {p : Char → Bool} {s before after : Text} (h : Run p s before after) :
    s.takeWhile p = before := by
  have hafter : after.takeWhile p = [] := by
    cases after with
    | nil => rfl
    | cons c after => exact List.takeWhile_cons_of_neg (by simp [h.ends c rfl])
  rw [h.eq, List.takeWhile_append_of_pos h.all, hafter, List.append_nil]

theorem Run.dropWhile_eq {p : Char → Bool} {s before after : Text} (h : Run p s before after) :
    s.dropWhile p = after := by
  have hs : before ++ s.dropWhile p = before ++ after := by
    rw [← h.eq, ← h.takeWhile_eq]
    exact List.takeWhile_append_dropWhile
  exact List.append_cancel_left hs

/-- A text without a mark is the run up to the mark. -/
theorem run_append_cons {mark : Char} {before : Text} (h : mark ∉ before) (after : Text) :
    Run (· != mark) (before ++ mark :: after) before (mark :: after) := by
  refine ⟨rfl, ?_, by simp⟩
  intro c hc
  exact bne_iff_ne.2 (ne_of_mem_of_not_mem hc h)

theorem not_mem_of_mem_splitOn {s part : Text} {c : Char} (h : part ∈ s.splitOn c) :
    c ∉ part := by
  induction s generalizing part with
  | nil =>
    rw [List.splitOn_nil, List.mem_singleton] at h
    simp [h]
  | cons d s ih =>
    obtain ⟨first, others, hs⟩ := List.exists_cons_of_ne_nil (List.splitOn_ne_nil c s)
    rw [List.splitOn_cons_eq_if_modifyHead, hs] at h
    rw [hs] at ih
    by_cases hd : d = c
    · simp only [hd, beq_self_eq_true, if_true, List.mem_cons] at h
      rcases h with rfl | rfl | h
      · exact List.not_mem_nil
      · exact ih List.mem_cons_self
      · exact ih (List.mem_cons_of_mem _ h)
    · simp only [beq_iff_eq, hd, if_false, List.modifyHead_cons, List.mem_cons] at h
      rcases h with rfl | h
      · have hfirst : c ∉ first := ih List.mem_cons_self
        simp [hfirst, Ne.symm hd]
      · exact ih (List.mem_cons_of_mem _ h)

end Keymap.Text

import Keymap.Pattern
import Keymap.Proofs.Text.Trim
import Mathlib

/-! # The keys, modifiers and characters that parts can be

Only F1 to F24, the capital letters and the keys without a parameter have a name
that is read, and each of them is read from the name it is shown by. A single
character that is no ASCII letter is read as itself.
-/
namespace Keymap

theorem Text.lookup_eq_some {α : Type} {table : List (String × α)} {word : Text} {a : α}
    (h : lookup table word = some a) :
    ∃ entry ∈ table, entry.1.toList = word ∧ entry.2 = a := by
  obtain ⟨entry, hentry, rfl⟩ := Option.map_eq_some_iff.1 h
  have hword := List.find?_some hentry
  exact ⟨entry, List.mem_of_find?_eq_some hentry, beq_iff_eq.1 hword, rfl⟩

theorem Text.lookup_eq_none {α : Type} {table : List (String × α)} {word : Text}
    (h : ∀ entry ∈ table, entry.1.toList.length ≠ word.length) : lookup table word = none := by
  rw [lookup, Option.map_eq_none_iff, List.find?_eq_none]
  intro entry hentry heq
  exact h entry hentry (by rw [beq_iff_eq.1 heq])

namespace Key

def isNamed : Key → Bool
  | .function n => 1 ≤ n && n ≤ 24
  | .letter c => c.isUpper
  | _ => true

theorem isNamed_of_mem_words : ∀ entry ∈ words, entry.2.isNamed := by decide

theorem le_ofDigitChars (digits : List Char) (n : ℕ) : n ≤ Nat.ofDigitChars 10 digits n := by
  induction digits generalizing n with
  | nil => exact le_of_eq Nat.ofDigitChars_nil.symm
  | cons c digits ih =>
    rw [Nat.ofDigitChars_cons]
    exact le_trans (by omega) (ih _)

/-- A number without a leading zero is positive. -/
theorem ofDigitChars_pos {first : Char} (digits : List Char) (hfirst : first.isDigit = true)
    (hzero : first ≠ '0') : 1 ≤ Nat.ofDigitChars 10 (first :: digits) 0 := by
  rw [Nat.ofDigitChars_cons]
  refine le_trans ?_ (le_ofDigitChars digits _)
  have hge : '0'.toNat ≤ first.toNat := by
    simp only [Char.isDigit, Bool.and_eq_true, decide_eq_true_eq] at hfirst
    exact hfirst.1
  have hne : first.toNat ≠ '0'.toNat := fun he => hzero (Char.toNat_inj.1 he)
  omega

theorem digitChar_of_isDigit {c : Char} (h : c.isDigit = true) :
    c.toNat - '0'.toNat < 10 ∧ (c.toNat - '0'.toNat).digitChar = c := by
  obtain ⟨hge, hle⟩ := Char.isDigit_iff_toNat.1 h
  have hnine : '9'.toNat = '0'.toNat + 9 := rfl
  have hzero : '0'.toNat = 48 := rfl
  have hlt : c.toNat - '0'.toNat < 10 := by omega
  refine ⟨hlt, Char.toNat_inj.1 ?_⟩
  rw [Nat.toNat_digitChar_of_lt_ten hlt]
  omega

/-- A run of digits without a leading zero is the decimal form of its value. -/
theorem ofNat_ofDigitChars {first : Char} {digits : List Char} (hzero : first ≠ '0')
    (hall : ∀ c ∈ first :: digits, c.isDigit = true) :
    Text.ofNat (Nat.ofDigitChars 10 (first :: digits) 0) = first :: digits := by
  have hfirst := hall first List.mem_cons_self
  induction digits using List.reverseRecOn with
  | nil =>
    obtain ⟨hlt, hchar⟩ := digitChar_of_isDigit hfirst
    rw [Nat.ofDigitChars_cons, Nat.ofDigitChars_nil, Nat.mul_zero, Nat.zero_add, Text.ofNat,
      Nat.toDigits_of_lt_base hlt, hchar]
  | append_singleton digits c ih =>
    rw [← List.cons_append] at hall ⊢
    obtain ⟨hlt, hchar⟩ := digitChar_of_isDigit (hall c (by simp))
    have hpos := ofDigitChars_pos digits hfirst hzero
    have hdigits := ih fun d hd => hall d (List.mem_append_left [c] hd)
    rw [Text.ofNat] at hdigits
    rw [Nat.ofDigitChars_append, Nat.ofDigitChars_cons, Nat.ofDigitChars_nil, Text.ofNat,
      ← Nat.toDigits_append_toDigits (by decide) hpos hlt, Nat.toDigits_of_lt_base hlt, hchar,
      hdigits]

theorem exists_of_ofFunctionName? {s : Text} {k : Key} (h : ofFunctionName? s = some k) :
    ∃ n, 1 ≤ n ∧ n ≤ 24 ∧ s = 'f' :: Text.ofNat n ∧ k = .function n := by
  unfold ofFunctionName? at h
  split at h
  next first digits =>
    split at h
    next hdigits =>
      dsimp only at h
      split at h
      next hle =>
        cases h
        have hall := List.all_eq_true.1 hdigits.2
        have hpos := ofDigitChars_pos digits (hall first List.mem_cons_self) hdigits.1
        exact ⟨_, hpos, hle, by rw [ofNat_ofDigitChars hdigits.1 hall], rfl⟩
      next => cases h
    next => cases h
  next => cases h

theorem exists_of_ofSingleLetter? {s : Text} {k : Key} (h : ofSingleLetter? s = some k) :
    ∃ c : Char, c.isAlpha = true ∧ s = [c] ∧ k = .letter c.toUpper := by
  unfold ofSingleLetter? at h
  split at h
  next c =>
    rw [ofLetter?] at h
    split at h
    next hc =>
      cases h
      exact ⟨c, hc, rfl, rfl⟩
    next => cases h
  next => cases h

/-- What a text that is read as a key can be: a word, a number behind an `f` or a letter. -/
theorem cases_of_ofName? {s : Text} {k : Key} (h : ofName? s = some k) :
    Text.lookup words s.toLower = some k ∨
      (∃ n, 1 ≤ n ∧ n ≤ 24 ∧ s.toLower = 'f' :: Text.ofNat n ∧ k = .function n) ∨
      ∃ c : Char, c.isAlpha = true ∧ s = [c] ∧ k = .letter c.toUpper := by
  rw [ofName?, Option.orElse_eq_orElse, Option.orElse_eq_or, Option.or_eq_some_iff,
    Option.orElse_eq_or, Option.or_eq_some_iff] at h
  rcases h with h | ⟨-, h | ⟨-, h⟩⟩
  · exact Or.inl h
  · exact Or.inr (Or.inl (exists_of_ofFunctionName? h))
  · exact Or.inr (Or.inr (exists_of_ofSingleLetter? h))

theorem isNamed_of_ofName? {s : Text} {k : Key} (h : ofName? s = some k) : k.isNamed := by
  rcases cases_of_ofName? h with h | ⟨n, hpos, hle, -, rfl⟩ | ⟨c, hc, -, rfl⟩
  · obtain ⟨entry, hentry, -, rfl⟩ := Text.lookup_eq_some h
    exact isNamed_of_mem_words entry hentry
  · simp only [isNamed, Bool.and_eq_true, decide_eq_true_eq]
    exact ⟨hpos, hle⟩
  · rw [isNamed, Char.isUpper_toUpper_eq_isAlpha, hc]

/-- A text of one character is a key only if the character is an ASCII letter. -/
theorem ofName?_singleton (c : Char) : ofName? [c] = ofLetter? c := by
  have hwords : Text.lookup words (Text.toLower [c]) = none := by
    apply Text.lookup_eq_none
    rw [Text.length_toLower]
    exact (by decide : ∀ entry ∈ words, entry.1.toList.length ≠ 1)
  have hfunction : ofFunctionName? (Text.toLower [c]) = none := by
    unfold ofFunctionName?
    split
    next hs => simp [Text.toLower] at hs
    next => rfl
  rw [ofName?, hwords, hfunction]
  rfl

theorem ofLetter?_of_isUpper {c : Char} (h : c.isUpper = true) :
    ofLetter? c = some (.letter c) := by
  have hc : c.isAlpha = true := by rw [Char.isAlpha, h, Bool.true_or]
  have hupper : c.toUpper = c := Char.toUpper_eq_of_not_isLower (Char.not_isLower_of_isUpper h)
  rw [ofLetter?, if_pos hc, hupper]

/-- The letter key does not depend on the case of its letter. -/
@[simp] theorem ofLetter?_toLower (c : Char) : ofLetter? c.toLower = ofLetter? c := by
  simp [ofLetter?]

theorem ofName?_display {k : Key} (h : k.isNamed) : ofName? k.display = some k := by
  cases k with
  | function n =>
    have hall : ∀ n ≤ 24, 1 ≤ n → ofName? (Key.function n).display = some (.function n) := by
      decide +kernel
    simp only [isNamed, Bool.and_eq_true, decide_eq_true_eq] at h
    exact hall n h.2 h.1
  | letter c => exact (ofName?_singleton c).trans (ofLetter?_of_isUpper h)
  | _ => decide

theorem isAlphanum_of_mem_display {k : Key} (h : k.isNamed) :
    ∀ c ∈ k.display, c.isAlphanum = true := by
  cases k with
  | function n =>
    intro c hc
    rcases List.mem_cons.1 hc with rfl | hc
    · decide
    · rw [Char.isAlphanum, Nat.isDigit_of_mem_toDigits (by decide) (by decide) hc, Bool.or_true]
  | letter c =>
    intro d hd
    obtain rfl := List.mem_singleton.1 hd
    rw [Char.isAlphanum, Char.isAlpha, show d.isUpper = true from h]
    rfl
  | _ => exact List.all_eq_true.1 (by decide)

end Key

theorem Modifier.isAlphanum_of_mem_name (m : Modifier) : ∀ c ∈ m.name, c.isAlphanum = true := by
  apply List.all_eq_true.1
  cases m <;> decide

theorem Modifier.ofName?_singleton (c : Char) : ofName? [c] = none := by
  apply Text.lookup_eq_none
  rw [Text.length_toLower]
  exact (by decide : ∀ entry ∈ words, entry.1.toList.length ≠ 1)

namespace Pattern.Part

theorem ofText_name (m : Modifier) : ofText m.name = .ok (.modifier m) := by
  cases m <;> decide

theorem ofText_display {k : Key} (h : k.isNamed) : ofText k.display = .ok (.key k) := by
  unfold ofText
  rw [Key.ofName?_display h]

/-- A character that is no ASCII letter stands for itself. -/
theorem ofText_singleton {c : Char} (h : c.isAlpha = false) : ofText [c] = .ok (.literal c) := by
  have hkey : Key.ofName? [c] = none := by
    rw [Key.ofName?_singleton, Key.ofLetter?, h]
    rfl
  unfold ofText
  rw [hkey, Modifier.ofName?_singleton]

theorem isNamed_of_ofText {s : Text} {k : Key} (h : ofText s = .ok (.key k)) : k.isNamed := by
  unfold ofText at h
  split at h
  next k' _ _ hk =>
    cases h
    exact Key.isNamed_of_ofName? hk
  all_goals cases h

theorem eq_singleton_of_ofText {s : Text} {c : Char} (h : ofText s = .ok (.literal c)) :
    s = [c] ∧ c.isAlpha = false := by
  unfold ofText at h
  split at h
  case h_3 c' hkey _ =>
    cases h
    refine ⟨rfl, ?_⟩
    rw [Key.ofName?_singleton, Key.ofLetter?] at hkey
    by_contra hc
    rw [Bool.not_eq_false] at hc
    rw [if_pos hc] at hkey
    cases hkey
  all_goals cases h

end Pattern.Part

end Keymap

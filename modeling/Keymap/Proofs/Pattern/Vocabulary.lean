import Keymap.Proofs.Traversal
import Keymap.Proofs.Pattern.Rearrangement

/-! # The vocabulary of patterns

The names of keys and modifiers as a user is told them, in any case of the letters of
ASCII. Main statement: a part is a key or a modifier exactly if it is one of the names, and
what remains is a single character or an error that quotes the part. The number of a
function key is read as a whole, however many digits it has.
-/
namespace Keymap

namespace Text

/-- The same character, or the two forms of one letter of ASCII. The small form comes 32 code points
after the capital. Letters of other scripts have only themselves. -/
inductive SameLetter : Char → Char → Prop
  | refl (c : Char) : SameLetter c c
  | lowered {c : Char} (h : c.isUpper) : SameLetter c (Char.ofNat (c.toNat + 32))
  | raised {c : Char} (h : c.isUpper) : SameLetter (Char.ofNat (c.toNat + 32)) c

def Recased : Text → Text → Prop := List.Forall₂ SameLetter

theorem SameLetter.toLower_eq {c d : Char} (h : SameLetter c d) : c.toLower = d.toLower := by
  cases h with
  | refl => rfl
  | lowered h => rw [← Char.toLower_eq_of_isUpper h, Char.toLower_toLower_eq_toLower]
  | raised h => rw [← Char.toLower_eq_of_isUpper h, Char.toLower_toLower_eq_toLower]

theorem sameLetter_toLower (c : Char) : SameLetter c c.toLower ∧ SameLetter c.toLower c := by
  by_cases hc : c.isUpper
  · rw [Char.toLower_eq_of_isUpper hc]
    exact ⟨.lowered hc, .raised hc⟩
  · rw [Char.toLower_eq_of_not_isUpper hc]
    exact ⟨.refl c, .refl c⟩

theorem sameLetter_of_toLower_eq {c d : Char} (h : c.toLower = d.toLower) : SameLetter c d := by
  by_cases hc : c.isUpper
  · by_cases hd : d.isUpper
    · have heq : c.toUpper = d.toUpper := by
        rw [← Char.toUpper_toLower_eq_toUpper, h, Char.toUpper_toLower_eq_toUpper]
      rw [Char.toUpper_eq_of_not_isLower (Char.not_isLower_of_isUpper hc),
        Char.toUpper_eq_of_not_isLower (Char.not_isLower_of_isUpper hd)] at heq
      exact heq ▸ .refl c
    · rw [Char.toLower_eq_of_not_isUpper hd] at h
      exact h ▸ (sameLetter_toLower c).1
  · rw [Char.toLower_eq_of_not_isUpper hc] at h
    exact h ▸ (sameLetter_toLower d).2

theorem recased_iff {s t : Text} : Recased s t ↔ toLower s = toLower t := by
  have hsame : SameLetter = fun c d => c.toLower = d.toLower := by
    ext c d
    exact ⟨SameLetter.toLower_eq, sameLetter_of_toLower_eq⟩
  rw [Recased, hsame, toLower, toLower, ← List.forall₂_eq_eq_eq, List.forall₂_map_left_iff,
    List.forall₂_map_right_iff]

theorem toLower_of_isDigit {c : Char} (h : c.isDigit = true) : c.toLower = c := by
  apply Char.toLower_eq_of_not_isUpper
  intro hupper
  simp only [Char.isDigit, Char.isUpper, Bool.and_eq_true, decide_eq_true_eq,
    UInt32.le_iff_toNat_le] at h hupper
  exact absurd (hupper.1.trans h.2) (by decide)

theorem toLower_of_digits {digits : Text} (h : ∀ c ∈ digits, c.isDigit = true) :
    toLower digits = digits := by
  rw [toLower, List.map_congr_left fun c hc => toLower_of_isDigit (h c hc), List.map_id']

/-- A table leads to names only, if its words are among them in lower case. -/
theorem exists_recased_of_lookup {α : Type} {table : List (String × α)} {names : α → List Text}
    (hnames : ∀ entry ∈ table, entry.1.toList ∈ (names entry.2).map toLower) {t : Text} {a : α}
    (h : lookup table (toLower t) = some a) : ∃ name ∈ names a, Recased name t := by
  obtain ⟨entry, hentry, hword, rfl⟩ := lookup_eq_some h
  obtain ⟨name, hname, hlower⟩ := List.mem_map.1 (hnames entry hentry)
  exact ⟨name, hname, recased_iff.2 (hlower.trans hword)⟩

theorem lookup_cons_eq_none {α : Type} {table : List (String × α)} {c : Char}
    (h : ∀ entry ∈ table, entry.1.toList.head? ≠ some c) (s : Text) :
    lookup table (c :: s) = none := by
  rw [Option.eq_none_iff_forall_ne_some]
  intro a ha
  obtain ⟨entry, hentry, hword, -⟩ := lookup_eq_some ha
  exact h entry hentry (by rw [hword, List.head?_cons])

end Text

/-- The full name of a key and the other names that it goes by. A function key has its number in
decimal, a letter key its capital; where the number or the letter is out of range, the key has no
name. -/
def Key.names : Key → List Text
  | .enter => ["Enter".toList, "Return".toList]
  | .tab => ["Tab".toList]
  | .space => ["Space".toList, "Spacebar".toList]
  | .escape => ["Escape".toList, "Esc".toList]
  | .backspace => ["Backspace".toList]
  | .delete => ["Delete".toList, "Del".toList]
  | .insert => ["Insert".toList, "Ins".toList]
  | .home => ["Home".toList]
  | .endKey => ["End".toList]
  | .pageUp => ["PageUp".toList]
  | .pageDown => ["PageDown".toList]
  | .up => ["UpArrow".toList, "Up".toList]
  | .down => ["DownArrow".toList, "Down".toList]
  | .left => ["LeftArrow".toList, "Left".toList]
  | .right => ["RightArrow".toList, "Right".toList]
  | .function n => if 1 ≤ n ∧ n ≤ 24 then ['F' :: Text.ofNat n] else []
  | .letter c => if c.isUpper then [[c]] else []

def Modifier.names : Modifier → List Text
  | .control => ["Control".toList, "Ctrl".toList]
  | .alt => ["Alt".toList]
  | .shift => ["Shift".toList]

def Key.IsCalled (k : Key) (t : Text) : Prop := ∃ name ∈ k.names, Text.Recased name t

def Modifier.IsCalled (m : Modifier) (t : Text) : Prop := ∃ name ∈ m.names, Text.Recased name t

/-- What a part of a pattern means, by the vocabulary. -/
inductive Pattern.Part.Meaning (t : Text) : Except PatternError Part → Prop
  | key {k : Key} (h : k.IsCalled t) : Meaning t (.ok (.key k))
  | modifier {m : Modifier} (h : m.IsCalled t) : Meaning t (.ok (.modifier m))
  | literal {c : Char} (hkey : ∀ k : Key, ¬ k.IsCalled t)
      (hmodifier : ∀ m : Modifier, ¬ m.IsCalled t) (hc : t = [c]) : Meaning t (.ok (.literal c))
  | unrecognized (hkey : ∀ k : Key, ¬ k.IsCalled t) (hmodifier : ∀ m : Modifier, ¬ m.IsCalled t)
      (hc : ∀ c, t ≠ [c]) : Meaning t (.error (.unrecognized t))

namespace Key

theorem ofName?_of_mem_names {k : Key} {name : Text} (h : name ∈ k.names) :
    ofName? name = some k := by
  cases k with
  | function n =>
    rw [names] at h
    split at h
    next hn =>
      obtain rfl := List.mem_singleton.1 h
      have hnamed : (Key.function n).isNamed = true := by simpa [isNamed] using hn
      exact ofName?_display hnamed
    next => cases h
  | letter c =>
    rw [names] at h
    split at h
    next hc =>
      obtain rfl := List.mem_singleton.1 h
      exact ofName?_display (k := .letter c) hc
    next => cases h
  | _ =>
    revert name
    decide

theorem ofName?_eq_some_iff {t : Text} {k : Key} : ofName? t = some k ↔ k.IsCalled t := by
  constructor
  · intro h
    rcases cases_of_ofName? h with hword | ⟨n, hpos, hle, hnumber, rfl⟩ | ⟨c, hc, rfl, rfl⟩
    · exact Text.exists_recased_of_lookup (by decide) hword
    · refine ⟨'F' :: Text.ofNat n, by simp [names, hpos, hle], Text.recased_iff.2 ?_⟩
      rw [← Text.toLower_toLower t, hnumber]
      rfl
    · exact ⟨[c.toUpper], by simp [names, hc], Text.recased_iff.2 (by simp)⟩
  · rintro ⟨name, hname, h⟩
    rw [← ofName?_toLower, ← Text.recased_iff.1 h, ofName?_toLower, ofName?_of_mem_names hname]

theorem ofName?_eq_none_iff {t : Text} : ofName? t = none ↔ ∀ k : Key, ¬ k.IsCalled t := by
  simp only [Option.eq_none_iff_forall_ne_some, ne_eq, ofName?_eq_some_iff]

/-- The number of a function key is the whole number behind the `f`. -/
theorem ofName?_of_large {f : Char} {digits : Text} (hf : f.toLower = 'f')
    (hdigits : ∀ c ∈ digits, c.isDigit = true) (hlarge : 24 < Nat.ofDigitChars 10 digits 0) :
    ofName? (f :: digits) = none := by
  have hlower : Text.toLower (f :: digits) = 'f' :: digits := by
    rw [Text.toLower_cons, hf, Text.toLower_of_digits hdigits]
  rw [Option.eq_none_iff_forall_ne_some]
  intro k hk
  rcases cases_of_ofName? hk with hword | ⟨n, -, hle, hnumber, -⟩ | ⟨c, -, hletter, -⟩
  · rw [hlower, Text.lookup_cons_eq_none (by decide)] at hword
    cases hword
  · rw [hlower, List.cons.injEq] at hnumber
    rw [hnumber.2, Text.ofNat, Nat.ofDigitChars_ten_toDigits] at hlarge
    omega
  · rw [List.cons.injEq] at hletter
    rw [hletter.2, Nat.ofDigitChars_nil] at hlarge
    omega

end Key

namespace Modifier

theorem ofName?_of_mem_names {m : Modifier} {name : Text} (h : name ∈ m.names) :
    ofName? name = some m := by
  revert name
  cases m <;> decide

theorem ofName?_eq_some_iff {t : Text} {m : Modifier} : ofName? t = some m ↔ m.IsCalled t := by
  constructor
  · exact Text.exists_recased_of_lookup (by decide)
  · rintro ⟨name, hname, h⟩
    rw [← ofName?_toLower, ← Text.recased_iff.1 h, ofName?_toLower, ofName?_of_mem_names hname]

theorem ofName?_eq_none_iff {t : Text} : ofName? t = none ↔ ∀ m : Modifier, ¬ m.IsCalled t := by
  simp only [Option.eq_none_iff_forall_ne_some, ne_eq, ofName?_eq_some_iff]

theorem ofName?_cons_of_toLower {f : Char} (hf : f.toLower = 'f') (s : Text) :
    ofName? (f :: s) = none := by
  rw [ofName?, Text.toLower_cons, hf, Text.lookup_cons_eq_none (by decide)]

/-- A text that names a modifier is not read as a key, although keys are tried first. -/
theorem IsCalled.ofName?_key_eq_none {m : Modifier} {t : Text} (h : m.IsCalled t) :
    Key.ofName? t = none := by
  obtain ⟨name, hname, h⟩ := h
  have hnone : ∀ name ∈ m.names, Key.ofName? name = none := by cases m <;> decide
  rw [← Key.ofName?_toLower, ← Text.recased_iff.1 h, Key.ofName?_toLower, hnone name hname]

end Modifier

namespace Pattern.Part

theorem Meaning.ofText_eq {t : Text} {r : Except PatternError Part} (h : Meaning t r) :
    ofText t = r := by
  unfold ofText
  cases h with
  | key h => rw [Key.ofName?_eq_some_iff.2 h]
  | modifier h => rw [h.ofName?_key_eq_none, Modifier.ofName?_eq_some_iff.2 h]
  | literal hkey hmodifier hc =>
    subst hc
    rw [Key.ofName?_eq_none_iff.2 hkey, Modifier.ofName?_eq_none_iff.2 hmodifier]
  | unrecognized hkey hmodifier hc =>
    rw [Key.ofName?_eq_none_iff.2 hkey, Modifier.ofName?_eq_none_iff.2 hmodifier]
    match t with
    | [] => rfl
    | [c] => exact absurd rfl (hc c)
    | _ :: _ :: _ => rfl

theorem exists_meaning (t : Text) : ∃ r, Meaning t r := by
  by_cases hkey : ∃ k : Key, k.IsCalled t
  · obtain ⟨k, hk⟩ := hkey
    exact ⟨_, .key hk⟩
  by_cases hmodifier : ∃ m : Modifier, m.IsCalled t
  · obtain ⟨m, hm⟩ := hmodifier
    exact ⟨_, .modifier hm⟩
  rw [not_exists] at hkey hmodifier
  by_cases hc : ∃ c, t = [c]
  · obtain ⟨c, hc⟩ := hc
    exact ⟨_, .literal hkey hmodifier hc⟩
  · exact ⟨_, .unrecognized hkey hmodifier (not_exists.1 hc)⟩

theorem meaning_ofText (t : Text) : Meaning t (ofText t) := by
  obtain ⟨r, hr⟩ := exists_meaning t
  rw [hr.ofText_eq]
  exact hr

theorem ofText_of_large {f : Char} {digits : Text} (hf : f = 'f' ∨ f = 'F')
    (hdigits : ∀ c ∈ digits, c.isDigit = true) (hlarge : 24 < Nat.ofDigitChars 10 digits 0) :
    ofText (f :: digits) = .error (.unrecognized (f :: digits)) := by
  have hlower : f.toLower = 'f' := by rcases hf with rfl | rfl <;> decide
  unfold ofText
  rw [Key.ofName?_of_large hlower hdigits hlarge, Modifier.ofName?_cons_of_toLower hlower]
  match digits with
  | [] => simp at hlarge
  | _ :: _ => rfl

theorem ofText_eq_ok_iff_of_recased {t u : Text} (h : Text.Recased t u) {p : Part} :
    ofText t = .ok p ↔ ofText u = .ok p := by
  rw [← Traversal.toOption_eq_some_iff, ← ofText_toLower, Text.recased_iff.1 h, ofText_toLower,
    Traversal.toOption_eq_some_iff]

/-- A part means what the vocabulary says of its spelling, and no text is a name of both a key and a
modifier. A number above 24 behind an `f` makes an error, with any count of digits. The case of its
letters changes nothing in a part that has a meaning. -/
theorem ofText_eq_iff_meaning :
    (∀ t r, ofText t = r ↔ Meaning t r) ∧
    (∀ t, Key.ofName? t = none ∨ Modifier.ofName? t = none) ∧
    (∀ f digits, f = 'f' ∨ f = 'F' → (∀ c ∈ digits, c.isDigit = true) →
      24 < Nat.ofDigitChars 10 digits 0 →
      ofText (f :: digits) = .error (.unrecognized (f :: digits))) ∧
    ∀ t u, Text.Recased t u → ∀ p, ofText t = .ok p ↔ ofText u = .ok p := by
  refine ⟨?_, ?_, ?_, ?_⟩
  · intro t r
    constructor
    · rintro rfl
      exact meaning_ofText t
    · exact Meaning.ofText_eq
  · intro t
    cases hm : Modifier.ofName? t with
    | none => exact Or.inr rfl
    | some m => exact Or.inl (Modifier.ofName?_eq_some_iff.1 hm).ofName?_key_eq_none
  · intro f digits hf hdigits hlarge
    exact ofText_of_large hf hdigits hlarge
  · intro t u h p
    exact ofText_eq_ok_iff_of_recased h

/-- The number 280 is 24 up to a multiple of 256. -/
theorem ofText_eq_iff_meaning_f280 :
    (∀ c ∈ "280".toList, c.isDigit = true) ∧ 24 < Nat.ofDigitChars 10 "280".toList 0 ∧
      ofText "F280".toList = .error (.unrecognized "F280".toList) ∧
      Text.Recased "Ins".toList "iNS".toList ∧
      (ofText "Ins".toList = .ok (.key .insert) ↔ ofText "iNS".toList = .ok (.key .insert)) := by
  obtain ⟨-, -, hlarge, hcase⟩ := ofText_eq_iff_meaning
  have hdigits : ∀ c ∈ "280".toList, c.isDigit = true := List.all_eq_true.1 (by decide)
  have hvalue : 24 < Nat.ofDigitChars 10 "280".toList 0 := by decide
  have hrecased : Text.Recased "Ins".toList "iNS".toList := Text.recased_iff.2 (by decide +kernel)
  exact ⟨hdigits, hvalue, hlarge 'F' _ (Or.inr rfl) hdigits hvalue, hrecased,
    hcase _ _ hrecased (.key .insert)⟩

/-- The Kelvin sign, whose small form in Unicode is the letter k, stands for itself. -/
example : ofText ['\u212a'] = .ok (.literal '\u212a') := by decide +kernel

end Pattern.Part

end Keymap

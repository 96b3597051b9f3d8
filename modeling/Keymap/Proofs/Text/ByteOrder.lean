import Keymap.Text.Utf8
import Mathlib

/-! # The order of texts and the order of their bytes

UTF-8 writes a character as a first byte, whose range tells how many bytes follow, and the
lowest digits of its code to the base 64. Main statement: texts compared character by
character stand in the order of their bytes, whatever numbers of bytes their characters have.
-/
namespace Keymap.Text

/-- The bytes of a text in UTF-8. Lists of bytes are compared one by one from the front. -/
def bytes (s : Text) : List UInt8 := (encode s).data.toList

theorem bytes_eq_flatMap (s : Text) : bytes s = s.flatMap String.utf8EncodeChar := by
  simp [bytes, encode, List.utf8Encode]

theorem bytes_cons (c : Char) (s : Text) :
    bytes (c :: s) = String.utf8EncodeChar c ++ bytes s := by
  rw [bytes_eq_flatMap, bytes_eq_flatMap, List.flatMap_cons]

theorem ofNat_cons_lt {a b : ℕ} (hb : b < 256) {u v : List UInt8} (h : a < b ∨ a = b ∧ u < v) :
    UInt8.ofNat a :: u < UInt8.ofNat b :: v := by
  rw [List.cons_lt_cons_iff]
  rcases h with h | ⟨rfl, h⟩
  · left
    rw [UInt8.lt_iff_toNat_lt, UInt8.toNat_ofNat', UInt8.toNat_ofNat', Nat.mod_eq_of_lt hb,
      Nat.mod_eq_of_lt (Nat.lt_trans h hb)]
    exact h
  · exact Or.inr ⟨rfl, h⟩

def digitBytes : ℕ → ℕ → List UInt8
  | 0, _ => []
  | k + 1, n => digitBytes k (n / 64) ++ [UInt8.ofNat (n % 64 + 0x80)]

/-- Where the digits above agree, the lowest digits decide, whatever stands behind them. -/
theorem digitBytes_append_lt {k m n : ℕ} (h : m < n) (hquot : m / 64 ^ k = n / 64 ^ k)
    (u v : List UInt8) : digitBytes k m ++ u < digitBytes k n ++ v := by
  induction k generalizing m n u v with
  | zero =>
    rw [Nat.pow_zero, Nat.div_one, Nat.div_one] at hquot
    exact absurd hquot (Nat.ne_of_lt h)
  | succ k ih =>
    rw [Nat.pow_succ', ← Nat.div_div_eq_div_mul, ← Nat.div_div_eq_div_mul] at hquot
    rw [digitBytes, digitBytes, List.append_assoc, List.append_assoc]
    by_cases hdigits : m / 64 = n / 64
    · rw [hdigits]
      apply List.append_left_lt
      exact ofNat_cons_lt (by omega) (Or.inl (by omega))
    · exact ih (by omega) hquot _ _

/-- The number of bytes behind the first one. -/
def digitCount (n : ℕ) : ℕ :=
  if n ≤ 0x7f then 0 else if n ≤ 0x7ff then 1 else if n ≤ 0xffff then 2 else 3

def firstByte (n : ℕ) : ℕ :=
  if n ≤ 0x7f then n
  else if n ≤ 0x7ff then n / 64 + 0xc0
  else if n ≤ 0xffff then n / 64 ^ 2 + 0xe0
  else n / 64 ^ 3 + 0xf0

theorem toNat_val_lt (c : Char) : c.val.toNat < 0x110000 := by
  rcases c.valid with h | ⟨-, h⟩
  · exact Nat.lt_trans h (by decide)
  · exact h

theorem encodeChar_eq (c : Char) :
    String.utf8EncodeChar c =
      UInt8.ofNat (firstByte c.val.toNat) :: digitBytes (digitCount c.val.toNat) c.val.toNat := by
  have hc := toNat_val_lt c
  unfold String.utf8EncodeChar firstByte digitCount
  generalize c.val.toNat = n at hc ⊢
  dsimp only
  split_ifs
  · rfl
  · simp [digitBytes, Nat.mod_eq_of_lt (by omega : n / 64 < 32)]
  · simp [digitBytes, Nat.mod_eq_of_lt (by omega : n / 4096 < 16)]
  · simp [digitBytes, Nat.div_div_eq_div_mul, Nat.mod_eq_of_lt (by omega : n / 262144 < 8)]

theorem firstByte_lt {n : ℕ} (h : n < 0x110000) : firstByte n < 256 := by
  unfold firstByte
  split_ifs <;> omega

/-- The first byte of a greater code is greater, or it is the same and only the lowest digits of
the two codes differ, which are equally many. -/
theorem firstByte_lt_or_eq {m n : ℕ} (h : m < n) :
    firstByte m < firstByte n ∨ firstByte m = firstByte n ∧ digitCount m = digitCount n ∧
      m / 64 ^ digitCount m = n / 64 ^ digitCount n := by
  unfold firstByte digitCount
  split_ifs <;> omega

theorem encodeChar_append_lt {c d : Char} (h : c.toNat < d.toNat) (u v : List UInt8) :
    String.utf8EncodeChar c ++ u < String.utf8EncodeChar d ++ v := by
  rw [encodeChar_eq, encodeChar_eq, List.cons_append, List.cons_append]
  change c.val.toNat < d.val.toNat at h
  apply ofNat_cons_lt (firstByte_lt (toNat_val_lt d))
  apply (firstByte_lt_or_eq h).imp_right
  rintro ⟨hfirst, hcount, hquot⟩
  rw [hcount] at hquot ⊢
  exact ⟨hfirst, digitBytes_append_lt h hquot u v⟩

theorem append_le_append_iff {p u v : List UInt8} : p ++ u ≤ p ++ v ↔ u ≤ v := by
  constructor
  · intro h
    by_contra huv
    exact List.not_lt.2 h (List.append_left_lt (List.not_le.1 huv))
  · exact List.append_left_le

theorem bytes_injective : Function.Injective bytes := by
  intro s t h
  have hencode : encode s = encode t := ByteArray.ext (Array.toList_inj.1 h)
  have hdecode := decode?_encode s
  rw [hencode, decode?_encode] at hdecode
  exact (Option.some.inj hdecode).symm

/-- The order of texts is that of their bytes. -/
theorem precedes_iff_bytes_le (s t : Text) : s.precedes t ↔ bytes s ≤ bytes t := by
  have hnil : bytes [] = [] := bytes_eq_flatMap []
  induction s generalizing t with
  | nil => simp [precedes, hnil, List.nil_le]
  | cons c s ih =>
    cases t with
    | nil => simp [precedes, hnil, bytes_cons, List.le_nil]
    | cons d t =>
      rw [bytes_cons, bytes_cons]
      rcases Nat.lt_trichotomy c.toNat d.toNat with h | h | h
      · simp [precedes, h, List.le_of_lt (encodeChar_append_lt h _ _)]
      · obtain rfl := Char.toNat_inj.1 h
        simp [precedes, ih, append_le_append_iff]
      · have hne : c ≠ d := by
          rintro rfl
          exact Nat.lt_irrefl _ h
        have hbytes := List.not_le.2 (encodeChar_append_lt h (bytes t) (bytes s))
        simp [precedes, Nat.not_lt_of_lt h, hne, hbytes]

end Keymap.Text

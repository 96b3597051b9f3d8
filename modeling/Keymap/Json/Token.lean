import Keymap.Text.Basic

/-!
The tokens of JSON. A token records what is wrong with it instead of failing, since a reader meets
the faults of a text in its order: a fault behind the point where reading stops does not count.
-/
namespace Keymap.Json

/-- The three ways in which a text can fail to hold what is read from it. -/
inductive Fault where
  /-- The text breaks the rules of JSON. -/
  | malformed
  /-- A value is not of the kind or has not the content that is asked for. -/
  | mismatch
  /-- The text ends too soon. -/
  | incomplete
  deriving DecidableEq

/-- A token. Where a token can be passed over without looking at its content, it can have two
faults: one for the reader of the content, and one for the reader who passes over it. -/
inductive Token where
  | openList
  | closeList
  | openObject
  | closeObject
  | comma
  | colon
  | null
  | boolean
  /-- A number, and whether it is in the range of double precision. -/
  | number (inRange : Bool)
  /-- A closed string with its content, unless its code units do not pair up. -/
  | string (content : Except Fault Text)
  /-- A string that is never properly closed. -/
  | brokenString (read passed : Fault)
  /-- A broken word or number, or a stray character. -/
  | broken (read passed : Fault)

/-! ## Strings -/

/-- An element of a string: a character, or a code unit given by an escape. -/
inductive StringItem where
  | char (c : Char)
  | unit (n : Nat)

def hexValue? (c : Char) : Option Nat :=
  if c.isDigit then some (c.toNat - '0'.toNat)
  else if 'a' ≤ c ∧ c ≤ 'f' then some (c.toNat - 'a'.toNat + 10)
  else if 'A' ≤ c ∧ c ≤ 'F' then some (c.toNat - 'A'.toNat + 10)
  else none

/-- The code unit of four hexadecimal digits. -/
def codeUnit? (a b c d : Char) : Option Nat :=
  match hexValue? a, hexValue? b, hexValue? c, hexValue? d with
  | some a, some b, some c, some d => some (((a * 16 + b) * 16 + c) * 16 + d)
  | _, _, _, _ => none

/-- The character of an escape with a single letter. -/
def simpleEscape? (c : Char) : Option Char :=
  match c with
  | '"' | '\\' | '/' => some c
  | 'b' => some '\x08'
  | 'f' => some '\x0c'
  | 'n' => some '\n'
  | 'r' => some '\r'
  | 't' => some '\t'
  | _ => none

/-- The elements of a string up to its closing quote, and the text behind it or the fault that comes
before it. An escape of a code unit has four bytes of digits: a text with fewer bytes left ends too
soon. -/
def scanString : Text → List StringItem × Except Fault Text
  | [] => ([], .error .incomplete)
  | ['\\'] => ([], .error .incomplete)
  | '\\' :: 'u' :: a :: b :: c :: d :: rest =>
    match codeUnit? a b c d with
    | some n =>
      let (items, after) := scanString rest
      (.unit n :: items, after)
    | none => ([], .error .malformed)
  | '\\' :: e :: rest =>
    if e = 'u' then
      ([], .error (if Text.byteCount rest < 4 then .incomplete else .malformed))
    else
      match simpleEscape? e with
      | some c =>
        let (items, after) := scanString rest
        (.char c :: items, after)
      | none => ([], .error .malformed)
  | c :: rest =>
    if c = '"' then ([], .ok rest)
    else if c.toNat < 0x20 then ([], .error .malformed)
    else
      let (items, after) := scanString rest
      (.char c :: items, after)

def isLeadingUnit (n : Nat) : Bool := 0xd800 ≤ n && n < 0xdc00

def isTrailingUnit (n : Nat) : Bool := 0xdc00 ≤ n && n < 0xe000

/-- The text of the elements, whose end is reached with the given fault if the string has one. A
leading unit has to be followed by a trailing one, and a trailing unit may not stand alone. -/
def decodeItems (ending : Option Fault) : List StringItem → Except Fault Text
  | [] =>
    match ending with
    | some fault => .error fault
    | none => .ok []
  | .char c :: items => (decodeItems ending items).map (c :: ·)
  | .unit n :: items =>
    if isTrailingUnit n then .error .malformed
    else if isLeadingUnit n then
      match items with
      | [] => .error (ending.getD .malformed)
      | .unit m :: items =>
        if isTrailingUnit m then
          let c := Char.ofNat (0x10000 + (n - 0xd800) * 0x400 + (m - 0xdc00))
          (decodeItems ending items).map (c :: ·)
        else .error .malformed
      | .char _ :: _ => .error .malformed
    else (decodeItems ending items).map (Char.ofNat n :: ·)

/-- The fault of a result that is known to have one, or of none. -/
def faultOf : Except Fault Text → Fault
  | .error fault => fault
  | .ok _ => .malformed

def stringToken (s : Text) : Token × Text :=
  match scanString s with
  | (items, .ok rest) => (.string (decodeItems none items), rest)
  | (items, .error fault) => (.brokenString (faultOf (decodeItems (some fault) items)) fault, [])

/-! ## Words and numbers -/

/-- A word of which the first letter has been read. -/
def wordToken (token : Token) : Text → Text → Token × Text
  | [], s => (token, s)
  | _ :: _, [] => (.broken .incomplete .incomplete, [])
  | expected :: word, c :: s =>
    if c = expected then wordToken token word s else (.broken .malformed .malformed, [])

/-- A number that ends where at least one more digit should stand. -/
def missingDigits (rest : Text) : Token × Text :=
  (.broken (if rest.isEmpty then .incomplete else .malformed) .malformed, [])

/-- Whether `digits · 10^exponent` is less than every number that rounds beyond the largest double.
-/
def inDoubleRange (digits : Text) (exponent : Int) : Bool :=
  let significand := Nat.ofDigitChars 10 digits 0
  let bound := Nat.pow 2 1024 - Nat.pow 2 970
  let length := (digits.dropWhile (· == '0')).length
  significand == 0 ||
    if 310 < length + exponent then false
    else if length + exponent < 300 then true
    else significand * Nat.pow 10 exponent.toNat < bound * Nat.pow 10 (-exponent).toNat

/-- The exponent of a number behind its mark, or nothing if its digits are missing. -/
def scanExponent (s : Text) : Option Int × Text :=
  let (negative, s) :=
    match s with
    | '-' :: rest => (true, rest)
    | '+' :: rest => (false, rest)
    | _ => (false, s)
  let digits := s.takeWhile Char.isDigit
  let value : Int := Nat.ofDigitChars 10 digits 0
  (if digits.isEmpty then none else some (if negative then -value else value),
    s.dropWhile Char.isDigit)

/-- The end of a number: its exponent if it has one. -/
def exponentToken (digits : Text) (scale : Int) : Text → Token × Text
  | c :: rest =>
    if c = 'e' ∨ c = 'E' then
      match scanExponent rest with
      | (some exponent, after) => (.number (inDoubleRange digits (exponent + scale)), after)
      | (none, after) => missingDigits after
    else (.number (inDoubleRange digits scale), c :: rest)
  | [] => (.number (inDoubleRange digits scale), [])

/-- A number behind its sign. A zero at the start of its digits has to be the only one before the
point. -/
def numberToken (s : Text) : Token × Text :=
  let whole := s.takeWhile Char.isDigit
  let rest := s.dropWhile Char.isDigit
  if whole.isEmpty then missingDigits rest
  else if whole.head? = some '0' ∧ 1 < whole.length then (.broken .malformed .malformed, [])
  else
    match rest with
    | '.' :: rest =>
      let fraction := rest.takeWhile Char.isDigit
      let after := rest.dropWhile Char.isDigit
      if fraction.isEmpty then missingDigits after
      else exponentToken (whole ++ fraction) (-fraction.length) after
    | _ => exponentToken whole 0 rest

/-! ## Tokens of a text -/

def isBlank (c : Char) : Bool := c == ' ' || c == '\n' || c == '\t' || c == '\r'

/-- The token that starts with a character, and the text behind it. -/
def scanToken (c : Char) (rest : Text) : Token × Text :=
  match c with
  | '[' => (.openList, rest)
  | ']' => (.closeList, rest)
  | '\x7b' => (.openObject, rest)
  | '\x7d' => (.closeObject, rest)
  | ',' => (.comma, rest)
  | ':' => (.colon, rest)
  | '"' => stringToken rest
  | 'n' => wordToken .null "ull".toList rest
  | 't' => wordToken .boolean "rue".toList rest
  | 'f' => wordToken .boolean "alse".toList rest
  | '-' => numberToken rest
  | _ => if c.isDigit then numberToken (c :: rest) else (.broken .malformed .malformed, [])

/-! Every token takes up at least the character it starts with. -/

theorem length_of_scanString {s rest : Text} (h : (scanString s).2 = .ok rest) :
    rest.length < s.length := by
  fun_induction scanString s <;> simp_all <;> omega

theorem length_stringToken_le (s : Text) : (stringToken s).2.length ≤ s.length := by
  unfold stringToken
  split
  · next h => exact Nat.le_of_lt (length_of_scanString (by rw [h]))
  · simp

theorem length_wordToken_le (token : Token) (word s : Text) :
    (wordToken token word s).2.length ≤ s.length := by
  fun_induction wordToken token word s <;> simp_all
  omega

theorem length_dropWhile_le (p : Char → Bool) (s : Text) : (s.dropWhile p).length ≤ s.length :=
  (List.dropWhile_sublist p).length_le

theorem length_missingDigits (s : Text) : (missingDigits s).2.length = 0 := rfl

theorem length_scanExponent_le (s : Text) : (scanExponent s).2.length ≤ s.length := by
  unfold scanExponent
  split
  next h =>
    split at h <;> simp only [Prod.mk.injEq] at h <;> obtain ⟨-, rfl⟩ := h
    · exact Nat.le_succ_of_le (length_dropWhile_le _ _)
    · exact Nat.le_succ_of_le (length_dropWhile_le _ _)
    · exact length_dropWhile_le _ _

theorem length_exponentToken_le (digits : Text) (scale : Int) (s : Text) :
    (exponentToken digits scale s).2.length ≤ s.length := by
  unfold exponentToken
  split
  · next c rest =>
    have := length_scanExponent_le rest
    split
    · split
      · next h => exact Nat.le_succ_of_le (by simpa [h] using this)
      · simp [length_missingDigits]
    · exact Nat.le_refl _
  · exact Nat.le_refl _

theorem length_numberToken_le (c : Char) (s : Text) :
    (numberToken (c :: s)).2.length ≤ s.length := by
  unfold numberToken
  by_cases h : c.isDigit
  · have rest_le := length_dropWhile_le Char.isDigit s
    simp only [List.dropWhile_cons, h, if_true]
    split
    · simp [length_missingDigits]
    · split
      · simp
      · split
        · next fraction heq =>
          have := length_dropWhile_le Char.isDigit fraction
          rw [heq, List.length_cons] at rest_le
          split
          · simp [length_missingDigits]
          · exact Nat.le_trans (length_exponentToken_le _ _ _) (by omega)
        · exact Nat.le_trans (length_exponentToken_le _ _ _) rest_le
  · simp [h, length_missingDigits]

theorem length_numberToken_le_length (s : Text) : (numberToken s).2.length ≤ s.length := by
  cases s with
  | nil => exact Nat.le_refl _
  | cons c s => exact Nat.le_succ_of_le (length_numberToken_le c s)

theorem length_scanToken_le (c : Char) (rest : Text) :
    (scanToken c rest).2.length ≤ rest.length := by
  unfold scanToken
  split
  case h_7 => exact length_stringToken_le rest
  case h_8 => exact length_wordToken_le _ _ rest
  case h_9 => exact length_wordToken_le _ _ rest
  case h_10 => exact length_wordToken_le _ _ rest
  case h_11 => exact length_numberToken_le_length rest
  case h_12 =>
    split
    · exact length_numberToken_le c rest
    · simp
  all_goals exact Nat.le_refl _

/-- The tokens of a text in their order. Nothing follows a broken token. -/
def tokens : Text → List Token
  | [] => []
  | c :: rest =>
    if isBlank c then tokens rest
    else (scanToken c rest).1 :: tokens (scanToken c rest).2
termination_by s => s.length
decreasing_by
  · simp
  · exact Nat.lt_succ_of_le (length_scanToken_le c rest)

end Keymap.Json

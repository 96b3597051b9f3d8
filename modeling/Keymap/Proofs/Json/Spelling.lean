import Keymap.Json.Printer
import Keymap.Json.Reader
import Mathlib.Data.List.Forall2

/-! # Texts that spell tokens

A text spells tokens if it is made of their marks and quoted strings, with white space
between them. Unlike the scanner, which looks ahead in a text, spelling goes through
concatenation, so texts are put together piece by piece. Main statement: the tokens of a
text are the tokens that it spells.
-/
namespace Keymap.Json

/-! ## Quoted strings -/

theorem hexValue?_digitChar : ∀ d < 16, hexValue? (Nat.digitChar d) = some d := by decide

theorem codeUnit?_digitChar {n : Nat} (h : n < 0x20) :
    codeUnit? '0' '0' (Nat.digitChar (n / 16)) (Nat.digitChar (n % 16)) = some n := by
  rw [codeUnit?, hexValue?_digitChar (n / 16) (by omega), hexValue?_digitChar (n % 16) (by omega)]
  simp only [show hexValue? '0' = some 0 from rfl, Option.some.injEq]
  omega

/-- A code unit below the surrogates is a character by itself. -/
theorem decodeItems_unit {n : Nat} (h : n < 0xd800) (ending : Option Fault)
    (items : List StringItem) :
    decodeItems ending (.unit n :: items) = (decodeItems ending items).map (Char.ofNat n :: ·) := by
  have htrailing : isTrailingUnit n = false := by
    rw [isTrailingUnit, Bool.and_eq_false_iff, decide_eq_false_iff_not]
    exact Or.inl (by omega)
  have hleading : isLeadingUnit n = false := by
    rw [isLeadingUnit, Bool.and_eq_false_iff, decide_eq_false_iff_not]
    exact Or.inl (by omega)
  rw [decodeItems.eq_def]
  simp only [htrailing, hleading, Bool.false_eq_true, if_false]

/-- The escape of a character is scanned as one element, which decodes to the character. -/
theorem exists_item_of_escapeChar (c : Char) :
    ∃ item, (∀ rest, scanString (escapeChar c ++ rest) =
        (item :: (scanString rest).1, (scanString rest).2)) ∧
      ∀ ending items, decodeItems ending (item :: items) =
        (decodeItems ending items).map (c :: ·) := by
  unfold escapeChar
  split
  case h_8 hquote hbackslash _ _ _ _ _ =>
    split
    · next hcontrol =>
      refine ⟨.unit c.toNat, ?_, ?_⟩
      · intro rest
        change scanString ('\\' :: 'u' :: '0' :: '0' :: _ :: _ :: rest) = _
        rw [scanString, codeUnit?_digitChar hcontrol]
      · intro ending items
        rw [decodeItems_unit (by omega), Char.ofNat_toNat]
    · next hcontrol =>
      refine ⟨.char c, ?_, fun _ _ => rfl⟩
      intro rest
      rw [List.singleton_append, scanString, if_neg hquote, if_neg hcontrol]
      · exact fun h _ => hbackslash h
      · exact fun _ _ _ _ _ h _ => hbackslash h
      · exact fun _ _ h _ => hbackslash h
  all_goals exact ⟨.char _, fun _ => rfl, fun _ _ => rfl⟩

theorem exists_items_of_escaped (s rest : Text) :
    ∃ items, scanString (s.flatMap escapeChar ++ '"' :: rest) = (items, .ok rest) ∧
      decodeItems none items = .ok s := by
  induction s with
  | nil => exact ⟨[], rfl, rfl⟩
  | cons c s ih =>
    obtain ⟨items, hitems, hs⟩ := ih
    obtain ⟨item, hscan, hdecode⟩ := exists_item_of_escapeChar c
    refine ⟨item :: items, ?_, ?_⟩
    · rw [List.flatMap_cons, List.append_assoc, hscan, hitems]
    · rw [hdecode, hs]
      rfl

theorem stringToken_escaped (s rest : Text) :
    stringToken (s.flatMap escapeChar ++ '"' :: rest) = (.string (.ok s), rest) := by
  obtain ⟨items, hitems, hs⟩ := exists_items_of_escaped s rest
  rw [stringToken, hitems]
  simp only [hs]

/-! ## Tokens with white space -/

def mark? : Char → Option Token
  | '[' => some .openList
  | ']' => some .closeList
  | '\x7b' => some .openObject
  | '\x7d' => some .closeObject
  | ',' => some .comma
  | ':' => some .colon
  | _ => none

/-- The text is made of the tokens, with any white space before and behind each of them. -/
inductive Spells : Text → List Token → Prop where
  | nil : Spells [] []
  | blank {c : Char} {s : Text} {ts : List Token} (hc : isBlank c) (hs : Spells s ts) :
      Spells (c :: s) ts
  | mark {c : Char} {t : Token} {s : Text} {ts : List Token} (hc : mark? c = some t)
      (hs : Spells s ts) : Spells (c :: s) (t :: ts)
  | string (x : Text) {s : Text} {ts : List Token} (hs : Spells s ts) :
      Spells (quote x ++ s) (.string (.ok x) :: ts)

theorem tokens_cons (c : Char) (s : Text) :
    tokens (c :: s) =
      if isBlank c then tokens s else (scanToken c s).1 :: tokens (scanToken c s).2 := by
  rw [tokens]

theorem tokens_mark {c : Char} {t : Token} (h : mark? c = some t) (s : Text) :
    tokens (c :: s) = t :: tokens s := by
  unfold mark? at h
  split at h
  case h_7 => cases h
  all_goals
    cases h
    rw [tokens_cons]
    rfl

theorem tokens_quote (x s : Text) :
    tokens (quote x ++ s) = .string (.ok x) :: tokens s := by
  have hquote : quote x ++ s = '"' :: (x.flatMap escapeChar ++ '"' :: s) := by simp [quote]
  rw [hquote, tokens_cons, if_neg (by decide)]
  simp only [scanToken, stringToken_escaped]

theorem Spells.tokens_eq {s : Text} {ts : List Token} (h : Spells s ts) : tokens s = ts := by
  induction h with
  | nil => rw [tokens]
  | blank hc _ ih => rw [tokens_cons, if_pos hc, ih]
  | mark hc _ ih => rw [tokens_mark hc, ih]
  | string x _ ih => rw [tokens_quote, ih]

namespace Spells

variable {s : Text} {ts : List Token}

protected theorem append {s' : Text} {ts' : List Token} (h : Spells s ts) (h' : Spells s' ts') :
    Spells (s ++ s') (ts ++ ts') := by
  induction h with
  | nil => exact h'
  | blank hc _ ih => exact ih.blank hc
  | mark hc _ ih => exact ih.mark hc
  | string x _ ih =>
    rw [List.append_assoc]
    exact ih.string x

theorem blanks {w : Text} (hw : ∀ c ∈ w, isBlank c) : Spells w [] := by
  induction w with
  | nil => exact .nil
  | cons c w ih =>
    exact .blank (hw c List.mem_cons_self) (ih fun d hd => hw d (List.mem_cons_of_mem c hd))

theorem quoted (x : Text) : Spells (quote x) [.string (.ok x)] := by
  simpa using Spells.nil.string x

/-- A piece between an opening and a closing mark. -/
theorem bracketed {o c : Char} {t u : Token} (ho : mark? o = some t) (hc : mark? c = some u)
    (h : Spells s ts) : Spells (o :: s ++ [c]) (t :: ts ++ [u]) :=
  (h.mark ho).append (.mark hc .nil)

/-- Pieces with a comma between each two of them. -/
theorem join {parts : List Text} {groups : List (List Token)}
    (h : List.Forall₂ Spells parts groups) :
    Spells (Text.join [','] parts) (List.intercalate [.comma] groups) := by
  induction h with
  | nil => exact .nil
  | cons hpart hparts ih =>
    cases hparts with
    | nil => simpa [Text.join] using hpart
    | cons =>
      rw [Text.join, List.intercalate_cons_cons, List.intercalate_cons_cons, List.append_assoc,
        List.append_assoc]
      exact hpart.append (.mark rfl ih)

end Spells

end Keymap.Json

import Keymap.Proofs.Bindings.Patterns
import Keymap.Proofs.Json.Spelling

/-! # Bindings written in JSON

Both written forms of a configuration spell the same tokens: an object with a field for
each category. An object reads as the table of its fields, in whatever order they come.
Main statement: the patterns of bindings, written in either form, read back as a
configuration of these bindings.
-/
namespace Keymap.Json

/-! ## The tokens of a configuration -/

def listTokens (texts : List Text) : List Token :=
  .openList :: List.intercalate [.comma] (texts.map fun s => [.string (.ok s)]) ++ [.closeList]

def fieldTokens (entry : Category × List Text) : List Token :=
  .string (.ok entry.1.name) :: .colon :: listTokens entry.2

def objectTokens (entries : List (Category × List Text)) : List Token :=
  .openObject :: List.intercalate [.comma] (entries.map fieldTokens) ++ [.closeObject]

theorem spells_quotes (texts : List Text) :
    List.Forall₂ Spells (texts.map quote) (texts.map fun s => [.string (.ok s)]) := by
  rw [Traversal.forall₂_map_map_iff]
  exact fun s _ => .quoted s

theorem spells_compactList (texts : List Text) : Spells (compactList texts) (listTokens texts) :=
  .bracketed rfl rfl (.join (spells_quotes texts))

theorem spells_compact (config : Config) :
    Spells (compact config) (objectTokens config.toList) := by
  refine .bracketed rfl rfl (.join ?_)
  rw [Traversal.forall₂_map_map_iff]
  intro entry _
  exact .string _ (.mark rfl (spells_compactList entry.2))

theorem spells_newline (depth : Nat) : Spells (newline depth) [] := by
  refine .blanks ?_
  intro c hc
  rcases List.mem_cons.1 hc with rfl | hc
  · rfl
  · rw [List.eq_of_mem_replicate hc]
    rfl

theorem spells_block {o c : Char} {t u : Token} (ho : mark? o = some t) (hc : mark? c = some u)
    (depth : Nat) {items : List Text} {groups : List (List Token)}
    (h : List.Forall₂ Spells items groups) :
    Spells (block depth o c items) (t :: List.intercalate [.comma] groups ++ [u]) := by
  cases h with
  | nil => exact .bracketed ho hc .nil
  | cons hitem hitems =>
    have hlines : List.Forall₂ Spells (List.map (newline (depth + 1) ++ ·) (_ :: _)) (_ :: _) :=
      List.forall₂_map_left_iff.2
        ((List.Forall₂.cons hitem hitems).imp fun _ _ => (spells_newline _).append)
    have hbody := (Spells.join hlines).append (spells_newline depth)
    rw [List.append_nil] at hbody
    exact hbody.bracketed ho hc

theorem spells_pretty (config : Config) : Spells (pretty config) (objectTokens config.toList) := by
  refine spells_block rfl rfl 0 ?_
  rw [Traversal.forall₂_map_map_iff]
  intro entry _
  rw [List.append_assoc]
  exact .string _ (.mark rfl (.blank rfl (spells_block rfl rfl 1 (spells_quotes entry.2))))

/-! ## Reading the tokens -/

theorem readMoreStrings_tokens (texts : List Text) (rest : List Token) :
    readMoreStrings ((texts.flatMap fun s => [.comma, .string (.ok s)]) ++ .closeList :: rest) =
      .ok (texts, rest) := by
  induction texts with
  | nil => rfl
  | cons s texts ih =>
    simp only [List.flatMap_cons, List.cons_append, List.nil_append, readMoreStrings, ih]
    rfl

theorem intercalate_cons {α : Type} (a : α) (x : List α) (xs : List (List α)) :
    List.intercalate [a] (x :: xs) = x ++ xs.flatMap (a :: ·) := by
  induction xs generalizing x with
  | nil => simp
  | cons y xs ih =>
    rw [List.intercalate_cons_cons, ih, List.flatMap_cons]
    simp

theorem readStrings_listTokens (texts : List Text) (rest : List Token) :
    readStrings (listTokens texts ++ rest) = .ok (texts, rest) := by
  cases texts with
  | nil => rfl
  | cons s texts =>
    rw [listTokens, List.map_cons, intercalate_cons, List.flatMap_map]
    have h := readMoreStrings_tokens texts rest
    simp only [List.cons_append, List.nil_append, List.append_assoc, readStrings, h]
    rfl

theorem readField_listTokens {fields : Fields} {c : Category} (h : fields.get c = none)
    (texts : List Text) (rest : List Token) :
    readField fields c.name (.colon :: listTokens texts ++ rest) =
      .ok (fields.set c (some texts), rest) := by
  rw [readField, Category.ofExactName?_name]
  simp [h, readColon, readStrings_listTokens, bind, Except.bind, pure, Except.pure]

theorem readFields_comma {fields next : Fields} {name : Text} {ts us : List Token}
    (h : readField fields name ts = .ok (next, .comma :: us)) :
    readFields fields (.string (.ok name) :: ts) = readFields next us := by
  rw [readFields]
  split <;> simp_all

theorem readFields_closeObject {fields last : Fields} {name : Text} {ts us : List Token}
    (h : readField fields name ts = .ok (last, .closeObject :: us)) :
    readFields fields (.string (.ok name) :: ts) = .ok (last, us) := by
  rw [readFields]
  split <;> simp_all

def Fields.setAll (fields : Fields) (entries : List (Category × List Text)) : Fields :=
  entries.foldl (fun fields entry => fields.set entry.1 (some entry.2)) fields

/-- The fields of an object, each of a category that has none yet, are set one after the other. -/
theorem readFields_tokens {fields : Fields} {entry : Category × List Text}
    {entries : List (Category × List Text)}
    (hdistinct : ((entry :: entries).map Prod.fst).Nodup)
    (hfree : ∀ e ∈ entry :: entries, fields.get e.1 = none) (rest : List Token) :
    readFields fields (fieldTokens entry ++ ((entries.flatMap fun e => .comma :: fieldTokens e) ++
        .closeObject :: rest)) =
      .ok (fields.setAll (entry :: entries), rest) := by
  have hread := readField_listTokens (hfree entry List.mem_cons_self) entry.2
  induction entries generalizing fields entry with
  | nil => exact readFields_closeObject (hread (.closeObject :: rest))
  | cons next entries ih =>
    rw [List.map_cons, List.nodup_cons] at hdistinct
    have hfree' : ∀ e ∈ next :: entries,
        (fields.set entry.1 (some entry.2)).get e.1 = none := by
      intro e he
      rw [ByCategory.get_set, if_neg, hfree e (List.mem_cons_of_mem entry he)]
      exact fun h => hdistinct.1 (h ▸ List.mem_map_of_mem he)
    rw [List.flatMap_cons, List.append_assoc]
    refine (readFields_comma (hread _)).trans ?_
    exact ih hdistinct.2 hfree' (readField_listTokens (hfree' next List.mem_cons_self) next.2)

theorem readConfig_objectTokens {entries : List (Category × List Text)}
    (hdistinct : (entries.map Prod.fst).Nodup) :
    readConfig (objectTokens entries) = .ok ((noFields.setAll entries).config, []) := by
  cases entries with
  | nil => rfl
  | cons entry entries =>
    have hfree : ∀ e ∈ entry :: entries, noFields.get e.1 = none := by simp [noFields]
    have hread := readFields_tokens hdistinct hfree []
    rw [fieldTokens, List.cons_append] at hread
    rw [objectTokens, List.map_cons, intercalate_cons, List.flatMap_map, List.cons_append,
      List.append_assoc, fieldTokens, List.cons_append, readConfig, hread]
    · rfl
    · simp

/-- An object of fields of different categories reads as the table of these fields, in whatever
order they come and with whatever white space there is between the tokens. -/
theorem parseConfig_of_spells {entries : List (Category × List Text)} {s : Text}
    (hdistinct : (entries.map Prod.fst).Nodup) (h : Spells s (objectTokens entries)) :
    parseConfig s = .ok (noFields.setAll entries).config := by
  rw [parseConfig, readWhole, h.tokens_eq, readConfig_objectTokens hdistinct]
  rfl

theorem config_setAll_toList (config : Config) :
    (noFields.setAll config.toList).config = config := by
  refine ByCategory.ext_get ?_
  intro c
  cases c <;> rfl

theorem nodup_toList (config : Config) : (config.toList.map Prod.fst).Nodup := by
  have hall : config.toList.map Prod.fst = Category.all := rfl
  rw [hall]
  decide

theorem parseConfig_compact (config : Config) : parseConfig (compact config) = .ok config := by
  rw [parseConfig_of_spells (nodup_toList config) (spells_compact config), config_setAll_toList]

theorem parseConfig_pretty (config : Config) : parseConfig (pretty config) = .ok config := by
  rw [parseConfig_of_spells (nodup_toList config) (spells_pretty config), config_setAll_toList]

/-- White space behind a document does no harm. -/
theorem parseConfig_pretty_newline (config : Config) :
    parseConfig (pretty config ++ ['\n']) = .ok config := by
  have hnewline : Spells ['\n'] [] := .blank rfl .nil
  have hspells := (spells_pretty config).append hnewline
  rw [List.append_nil] at hspells
  rw [parseConfig_of_spells (nodup_toList config) hspells, config_setAll_toList]

/-- A text that says nothing but a name is a category if and only if the name is exactly that of the
category. -/
theorem parseCategory_eq_ok_iff {s name : Text} (h : Spells s [.string (.ok name)]) {c : Category} :
    parseCategory s = .ok c ↔ name = c.name := by
  rw [parseCategory, readWhole, h.tokens_eq, ← Category.ofExactName?_eq_some_iff]
  simp only [readCategory, readCategoryName]
  cases Category.ofExactName? name <;> simp [bind, Except.bind, pure, Except.pure]

theorem parseCategory_quote_name (c : Category) : parseCategory (quote c.name) = .ok c :=
  (parseCategory_eq_ok_iff (.quoted c.name)).2 rfl

/-- Bindings that have been built are a fixed point of writing, reading and building again, in
either written form. -/
theorem build_parseConfig_patterns {config : Config} {b : Bindings}
    (h : Bindings.build config = .ok b) :
    (∃ raw, parseConfig (compact b.patterns) = .ok raw ∧ Bindings.build raw = .ok b) ∧
      ∃ raw, parseConfig (pretty b.patterns) = .ok raw ∧ Bindings.build raw = .ok b := by
  have hbuild : Bindings.build b.patterns = .ok b := Bindings.build_patterns (.built h)
  exact ⟨⟨b.patterns, parseConfig_compact b.patterns, hbuild⟩,
    ⟨b.patterns, parseConfig_pretty b.patterns, hbuild⟩⟩

def escapedPatterns : Config :=
  { commitCompletion := []
    triggerCompletionList := ["\"".toList, "\\".toList, "\x01".toList, "😀".toList]
    insertNewline := [" ".toList]
    submitInput := ["enter+CTRL".toList, "".toList, "/".toList] }

theorem build_parseConfig_escapedPatterns :
    ∃ b, Bindings.build escapedPatterns = .ok b ∧
      (∃ raw, parseConfig (compact b.patterns) = .ok raw ∧ Bindings.build raw = .ok b) ∧
      ∃ raw, parseConfig (pretty b.patterns) = .ok raw ∧ Bindings.build raw = .ok b := by
  have hbuild : Bindings.build escapedPatterns = .ok
      { Bindings.default with
        triggerCompletionList :=
          [.literal '"', .literal '\\', .literal '\x01', .literal '😀']
        submitInput := [.named .enter { control := true }, .literal '/'] } := by
    decide +kernel
  exact ⟨_, hbuild, build_parseConfig_patterns hbuild⟩

end Keymap.Json

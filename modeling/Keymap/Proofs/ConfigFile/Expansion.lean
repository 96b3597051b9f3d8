import Keymap.Proofs.ConfigFile.TwoPass

/-! # Where the characters of a pattern come from

Every reference in a value gives way to the text of its variable, while a dollar sign
without a name is an ordinary character. So a dollar sign and a name can still meet in
a pattern, but not by themselves. Main statement: where they meet in an accepted file,
the name starts with a character that a variable has brought in.
-/
namespace Keymap

namespace Piece

/-- The characters that the pieces come to, each with its piece. -/
def origins : List Piece → List Text → List (Char × Piece)
  | piece :: pieces, t :: texts => t.map (fun c => (c, piece)) ++ origins pieces texts
  | _, _ => []

/-- If two neighbours are a dollar sign and a character of a name, a variable has brought in the
second one. -/
def Apart (a b : Char × Piece) : Prop :=
  a.1 = '$' → isReferenceChar b.1 = true → ∃ name, b.2 = .reference name

theorem map_fst_origins {r : Piece → Text → Prop} {pieces : List Piece} {texts : List Text}
    (h : List.Forall₂ r pieces texts) : (origins pieces texts).map Prod.fst = texts.flatten := by
  induction h with
  | nil => rfl
  | cons _ _ ih => simp [origins, Function.comp_def, ih]

variable {lines : List Text} {s : Text} {pieces : List Piece} {texts : List Text}

/-- A character of a name that a pattern starts with is the first one of the value, or a variable
has brought it in. -/
theorem Pieces.head?_origins (h : Pieces s pieces)
    (ht : List.Forall₂ (Variables.Stands lines) pieces texts) :
    ∀ b ∈ (origins pieces texts).head?, isReferenceChar b.1 = true →
      b.1 ∈ s.head? ∨ ∃ name, b.2 = .reference name := by
  induction h generalizing texts with
  | nil =>
    cases ht
    simp [origins]
  | plain hc h ih =>
    cases ht with
    | cons hpiece ht =>
      cases hpiece
      simp [origins]
  | @reference name rest tail pieces hname hne h ih =>
    cases ht with
    | @cons _ t _ texts _ ht =>
      intro b hb hx
      cases t with
      | nil =>
        rcases ih ht b hb hx with hhead | hreference
        · rw [hname.ends _ hhead] at hx
          cases hx
        · exact Or.inr hreference
      | cons c t =>
        rw [← Option.some.inj hb]
        exact Or.inr ⟨name, rfl⟩

theorem Pieces.isChain_origins (h : Pieces s pieces)
    (ht : List.Forall₂ (Variables.Stands lines) pieces texts) :
    (origins pieces texts).IsChain Apart := by
  induction h generalizing texts with
  | nil =>
    cases ht
    simp [origins]
  | @plain c rest pieces hc h ih =>
    cases ht with
    | cons hpiece ht =>
      cases hpiece
      rw [origins, List.map_singleton, List.singleton_append, List.isChain_cons]
      refine ⟨?_, ih ht⟩
      intro b hb hdollar hx
      rcases h.head?_origins ht b hb hx with hhead | hreference
      · rw [(hc hdollar).ends _ hhead] at hx
        cases hx
      · exact hreference
  | @reference name rest tail pieces hname hne h ih =>
    cases ht with
    | @cons _ t _ texts hpiece ht =>
      rw [origins, List.isChain_append]
      refine ⟨?_, ih ht, ?_⟩
      · apply List.Pairwise.isChain
        rw [List.pairwise_map]
        exact List.pairwise_of_forall_mem_list fun _ _ _ _ _ _ => ⟨name, rfl⟩
      · intro a _ b hb _ hx
        rcases h.head?_origins ht b hb hx with hhead | hreference
        · rw [hname.ends _ hhead] at hx
          cases hx
        · exact hreference

end Piece

namespace ConfigFile

open Variables (LastDefinition Stands Substituted)

/-- The text in the place of a piece. A reference has a variable and gives way to its value; what
comes of a value that has references itself is left open. -/
inductive Yields (lines : List Text) : Piece → Text → Prop
  | plain (c : Char) : Yields lines (.plain c) [c]
  | reference {name value text} (h : LastDefinition lines name value)
      (htext : (∀ other, .reference other ∉ Piece.ofText value) → text = value) :
      Yields lines (.reference name) text

theorem Yields.of_stands {lines : List Text} {piece : Piece} {text : Text}
    (h : Stands lines piece text) : Yields lines piece text := by
  cases h with
  | plain c => exact .plain c
  | reference h => exact .reference h fun _ => rfl

/-- The pattern is the value with the text of its variable in the place of each reference, and
wherever it has a dollar sign before a character of a name, this character is from a variable. -/
def Expanded (lines : List Text) (value pattern : Text) : Prop :=
  ∃ pieces texts, Piece.Pieces value pieces ∧ List.Forall₂ (Yields lines) pieces texts ∧
    (Piece.origins pieces texts).map Prod.fst = pattern ∧
    (Piece.origins pieces texts).IsChain Piece.Apart

theorem expanded_of_substituted {lines : List Text} {value pattern : Text}
    (h : Substituted lines value pattern) : Expanded lines value pattern := by
  obtain ⟨pieces, texts, hpieces, htexts, rfl⟩ := h
  exact ⟨pieces, texts, hpieces, htexts.imp fun _ _ => Yields.of_stands,
    Piece.map_fst_origins htexts, hpieces.isChain_origins htexts⟩

theorem Patterns.exists_assigns {lines ls ps : List Text} {c : Category}
    (h : Patterns lines c ls ps) {pattern : Text} (hp : pattern ∈ ps) :
    ∃ line ∈ ls, ∃ value, Assigns line c value ∧ Substituted lines value pattern := by
  induction h with
  | nil => cases hp
  | @assigned line value first rest ps h hfirst _ ih =>
    rcases List.mem_cons.1 hp with rfl | hp
    · exact ⟨line, List.mem_cons_self, value, h, hfirst⟩
    · obtain ⟨other, hother, hrest⟩ := ih hp
      exact ⟨other, List.mem_cons_of_mem line hother, hrest⟩
  | @other line rest ps _ _ ih =>
    obtain ⟨other, hother, hrest⟩ := ih hp
    exact ⟨other, List.mem_cons_of_mem line hother, hrest⟩

/-- Each pattern of an accepted file is the value of a line for its category, in which all
references are expanded; a dollar sign stands before a name only where a variable has brought in
the start of the name. -/
theorem expanded_of_parse {content : Text} {config : Config} (h : parse content = .ok config)
    {c : Category} {pattern : Text} (hp : pattern ∈ config.get c) :
    ∃ line ∈ Text.lines content, ∃ value, Assigns line c value ∧
      Expanded (Text.lines content) value pattern := by
  have hmeaning := outcome_parse content
  rw [h] at hmeaning
  cases hmeaning with
  | accepted _ hpatterns =>
    obtain ⟨line, hline, value, hassigns, hsubstituted⟩ := (hpatterns c).exists_assigns hp
    exact ⟨line, hline, value, hassigns, expanded_of_substituted hsubstituted⟩

def signBeforeReference : Text := "$a = b\nsubmit-input = $$a".toList

def referenceInVariable : Text := "$key = F5\n$submit = $key\nsubmit-input = $submit".toList

theorem expanded_of_parse_signBeforeReference :
    ∃ config, parse signBeforeReference = .ok config ∧
      "$b".toList ∈ config.get .submitInput ∧
      ∃ line ∈ Text.lines signBeforeReference, ∃ value, Assigns line .submitInput value ∧
        Expanded (Text.lines signBeforeReference) value "$b".toList := by
  have hparse : parse signBeforeReference =
      .ok { Config.empty with submitInput := ["$b".toList] } := rfl
  have hmem : "$b".toList ∈
      ({ Config.empty with submitInput := ["$b".toList] } : Config).get .submitInput :=
    List.mem_cons_self
  exact ⟨_, hparse, hmem, expanded_of_parse hparse hmem⟩

/-- Files are accepted with a dollar sign before a name in one of their patterns, behind an ordinary
dollar sign or out of a variable. -/
theorem references_left :
    (∃ config, parse signBeforeReference = .ok config ∧
      config.get .submitInput = [['$', 'b']] ∧ Piece.isReferenceChar 'b' = true) ∧
    ∃ config, parse referenceInVariable = .ok config ∧
      config.get .submitInput = [['$', 'k', 'e', 'y']] ∧ Piece.isReferenceChar 'k' = true :=
  ⟨⟨_, rfl, rfl, rfl⟩, _, rfl, rfl, rfl⟩

end ConfigFile

end Keymap

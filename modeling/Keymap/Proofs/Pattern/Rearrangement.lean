import Keymap.Proofs.Pattern.Grammar
import Keymap.Proofs.Pattern.Parts
import Mathlib

/-! # Patterns whose parts mean the same

What a pattern stands for is settled by the keys and characters among its parts, each
as often as it occurs, and by the set of its modifiers. Main statement: the chord stays
the same where parts change places, where a modifier is named again and where a part is
spelled in another way, and an unknown part stays an error.
-/
namespace Keymap

theorem Text.toLower_toLower (s : Text) : toLower (toLower s) = toLower s := by
  simp [toLower, Function.comp_def]

namespace Key

/-- Names of keys are read without regard to the case of letters. -/
theorem ofName?_toLower (s : Text) : ofName? (Text.toLower s) = ofName? s := by
  have hletter : ofSingleLetter? (Text.toLower s) = ofSingleLetter? s := by
    match s with
    | [] => rfl
    | [c] => exact ofLetter?_toLower c
    | _ :: _ :: _ => rfl
  rw [ofName?, ofName?, Text.toLower_toLower, hletter]

end Key

theorem Modifier.ofName?_toLower (s : Text) : ofName? (Text.toLower s) = ofName? s := by
  rw [ofName?, ofName?, Text.toLower_toLower]

namespace Pattern

/-- What a part means does not depend on the case of its letters. -/
theorem Part.ofText_toLower (t : Text) :
    (ofText (Text.toLower t)).toOption = (ofText t).toOption := by
  unfold ofText
  rw [Key.ofName?_toLower, Modifier.ofName?_toLower]
  cases hkey : Key.ofName? t with
  | some k => rfl
  | none =>
    cases Modifier.ofName? t with
    | some m => rfl
    | none =>
      match t with
      | [] => rfl
      | _ :: _ :: _ => rfl
      | [c] =>
        have hc : ¬ c.isUpper := by
          intro hupper
          rw [Key.ofName?_singleton, Key.ofLetter?_of_isUpper hupper] at hkey
          cases hkey
        simp [Char.toLower_eq_of_not_isUpper hc]

/-- A change of the parts of a pattern that leaves what they mean. -/
inductive Rewrites : List Text → List Text → Prop
  | order {ts us : List Text} (h : ts.Perm us) : Rewrites ts us
  | letterCase {before after : List Text} {t u : Text} (h : Text.toLower t = Text.toLower u) :
      Rewrites (before ++ t :: after) (before ++ u :: after)
  /-- The part gives way to another word for the same key or modifier. -/
  | synonym {before after : List Text} {t u : Text} {p : Part} (ht : Part.ofText t = .ok p)
      (hu : Part.ofText u = .ok p) : Rewrites (before ++ t :: after) (before ++ u :: after)
  /-- A modifier is named once more. -/
  | repetition {ts : List Text} {t : Text} {m : Modifier} (ht : t ∈ ts)
      (hm : Part.ofText t = .ok (.modifier m)) : Rewrites ts (t :: ts)

/-- The parts of the second pattern come from those of the first by such changes and by undoing
them. White space around parts is gone from both. -/
def Rearranged (s t : Text) : Prop := Relation.EqvGen Rewrites (parts s) (parts t)

def unknown (ts : List Text) : List Text :=
  (ts.filter fun t => (Part.ofText t).toOption.isNone).map Text.toLower

/-- The two lists have the same keys and characters, the same set of modifiers and the same unknown
parts. -/
structure Alike (ts us : List Text) : Prop where
  primaries_perm : (primaries ts).Perm (primaries us)
  mem_modifiers_iff : ∀ m, m ∈ modifiers ts ↔ m ∈ modifiers us
  unknown_perm : (unknown ts).Perm (unknown us)

theorem unknown_append (ts us : List Text) : unknown (ts ++ us) = unknown ts ++ unknown us := by
  simp [unknown]

theorem toOption_ofText_eq_none_iff {t : Text} : (Part.ofText t).toOption = none ↔ ¬ IsPart t := by
  cases h : Part.ofText t <;> simp [IsPart, h, Except.toOption]

theorem unknown_eq_nil_iff {ts : List Text} : unknown ts = [] ↔ ∀ t ∈ ts, IsPart t := by
  simp [unknown, toOption_ofText_eq_none_iff]

theorem recognized_singleton (t : Text) : recognized [t] = (Part.ofText t).toOption.toList := by
  cases h : (Part.ofText t).toOption <;> simp [recognized, h]

theorem length_eq_add (ts : List Text) :
    ts.length = (primaries ts).length + (modifiers ts).length + (unknown ts).length := by
  induction ts with
  | nil => rfl
  | cons t ts ih =>
    rw [← List.singleton_append, primaries_append, modifiers_append, unknown_append]
    cases h : Part.ofText t with
    | ok p =>
      rw [primaries_singleton h, modifiers_singleton h]
      cases p <;> simp [unknown, h, Except.toOption, Part.primary?, Part.modifier?] at ih ⊢ <;>
        omega
    | error e =>
      simp [primaries, modifiers, recognized_singleton, unknown, h, Except.toOption] at ih ⊢
      omega

namespace Alike

variable {ts us vs ws : List Text}

theorem refl (ts : List Text) : Alike ts ts := ⟨.refl _, fun _ => Iff.rfl, .refl _⟩

theorem symm (h : Alike ts us) : Alike us ts :=
  ⟨h.primaries_perm.symm, fun m => (h.mem_modifiers_iff m).symm, h.unknown_perm.symm⟩

theorem trans (h : Alike ts us) (h' : Alike us vs) : Alike ts vs :=
  ⟨h.primaries_perm.trans h'.primaries_perm,
    fun m => (h.mem_modifiers_iff m).trans (h'.mem_modifiers_iff m),
    h.unknown_perm.trans h'.unknown_perm⟩

theorem append (h : Alike ts us) (h' : Alike vs ws) : Alike (ts ++ vs) (us ++ ws) where
  primaries_perm := by simpa [primaries_append] using h.primaries_perm.append h'.primaries_perm
  mem_modifiers_iff m := by simp [modifiers_append, h.mem_modifiers_iff, h'.mem_modifiers_iff]
  unknown_perm := by simpa [unknown_append] using h.unknown_perm.append h'.unknown_perm

theorem of_perm (h : ts.Perm us) : Alike ts us where
  primaries_perm := (h.filterMap _).filterMap _
  mem_modifiers_iff _ := ((h.filterMap _).filterMap _).mem_iff
  unknown_perm := (h.filter _).map _

/-- Parts of one meaning, or unknown parts of one spelling, stand for each other anywhere. -/
theorem of_part {t u : Text} (h : (Part.ofText t).toOption = (Part.ofText u).toOption)
    (hspelled : (Part.ofText t).toOption = none → Text.toLower t = Text.toLower u)
    (ts us : List Text) : Alike (ts ++ t :: us) (ts ++ u :: us) := by
  have hone : Alike [t] [u] := by
    constructor
    · simp [primaries, recognized_singleton, h]
    · simp [modifiers, recognized_singleton, h]
    · cases hu : (Part.ofText u).toOption with
      | some p => simp [unknown, h, hu]
      | none =>
        rw [hu] at h
        simp [unknown, h, hu, hspelled h]
  exact (refl ts).append (hone.append (refl us))

theorem of_repetition {t : Text} {m : Modifier} (ht : t ∈ ts)
    (hm : Part.ofText t = .ok (.modifier m)) : Alike ts (t :: ts) := by
  rw [← List.singleton_append]
  constructor
  · rw [primaries_append, primaries_singleton hm]
    exact .refl _
  · intro n
    have hmem : m ∈ modifiers ts := mem_modifiers.2 ⟨t, ht, hm⟩
    rw [modifiers_append, modifiers_singleton hm, Part.modifier?, Option.toList_some,
      List.singleton_append, List.mem_cons, or_iff_right_of_imp]
    rintro rfl
    exact hmem
  · simp [unknown, hm, Except.toOption]

theorem isPart_iff (h : Alike ts us) : (∀ t ∈ ts, IsPart t) ↔ ∀ u ∈ us, IsPart u := by
  rw [← unknown_eq_nil_iff, ← unknown_eq_nil_iff]
  exact ⟨fun hts => (hts ▸ h.unknown_perm).nil_eq.symm,
    fun hus => (hus ▸ h.unknown_perm).eq_nil⟩

theorem exists_not_isPart_iff (h : Alike ts us) :
    (∃ t ∈ ts, ¬ IsPart t) ↔ ∃ u ∈ us, ¬ IsPart u := by
  simpa using not_congr h.isPart_iff

theorem faulty_iff (h : Alike ts us) : Faulty ts ↔ Faulty us := by
  rw [Faulty, Faulty, h.exists_not_isPart_iff, h.primaries_perm.length_eq]

/-- Parts that are no fault make the same draft in any arrangement. -/
theorem draft_eq (h : Alike ts us) (hts : ¬ Faulty ts) : draft ts = draft us := by
  have hprimaries : primaries ts = primaries us := by
    have hlen := length_primaries_of_not_faulty hts
    have hperm := h.primaries_perm
    match hp : primaries ts with
    | [] => simpa [hp] using hperm
    | [x] => simpa [hp, eq_comm] using hperm
    | _ :: _ :: _ => simp [hp] at hlen
  have hmodifiers : Modifiers.ofList (modifiers ts) = Modifiers.ofList (modifiers us) := by
    apply Modifiers.ext_has
    intro m
    rw [Bool.eq_iff_iff, Modifiers.has_ofList, Modifiers.has_ofList, h.mem_modifiers_iff]
  rw [draft, draft, hprimaries, hmodifiers]

/-- A single empty part is like no other list of parts. -/
theorem eq_of_nil (h : Alike ts [[]]) : ts = [[]] := by
  have hlen := length_eq_add ts
  have hmodifiers : modifiers ts = [] := by
    apply List.eq_nil_iff_forall_not_mem.2
    intro m hm
    cases (h.mem_modifiers_iff m).1 hm
  have hunknown : unknown ts = [[]] := h.unknown_perm.eq_singleton
  have hprimaries : primaries ts = [] := h.primaries_perm.eq_nil
  rw [hprimaries, hmodifiers, hunknown] at hlen
  obtain ⟨t, rfl⟩ := List.length_eq_one_iff.1 hlen
  cases ht : (Part.ofText t).toOption <;> simp_all [unknown, Text.toLower]

end Alike

theorem Rewrites.alike {ts us : List Text} (h : Rewrites ts us) : Alike ts us := by
  cases h with
  | order h => exact .of_perm h
  | letterCase h =>
    apply Alike.of_part _ fun _ => h
    rw [← Part.ofText_toLower, h, Part.ofText_toLower]
  | synonym ht hu =>
    apply Alike.of_part
    · rw [ht, hu]
    · simp [ht, Except.toOption]
  | repetition ht hm => exact .of_repetition ht hm

theorem Rearranged.alike {s t : Text} (h : Rearranged s t) : Alike (parts s) (parts t) := by
  rw [Rearranged] at h
  generalize parts s = ts at h ⊢
  generalize parts t = us at h ⊢
  induction h with
  | rel _ _ h => exact h.alike
  | refl ts => exact .refl ts
  | symm _ _ _ ih => exact ih.symm
  | trans _ _ _ _ _ ih ih' => exact ih.trans ih'

theorem not_faulty_of_chord {s : Text} {c : Chord} (hs : ¬ ∀ c ∈ s, Text.isBlank c)
    (h : chord s = .ok c) : ¬ Faulty (parts s) := by
  have hstands := standsFor_chord s
  rw [h] at hstands
  cases hstands with
  | blank hblank => exact absurd hblank hs
  | named _ hfault _ _ => exact hfault
  | literal _ ht hc =>
    rw [ht]
    rintro (⟨u, hu, hn⟩ | htwo)
    · exact hn ⟨_, List.mem_singleton.1 hu ▸ hc⟩
    · simp [primaries_singleton hc, Part.primary?] at htwo

/-- Patterns with the same parts up to their arrangement stand for the same chord. -/
theorem Alike.chord_eq_ok_iff {s t : Text} (h : Alike (parts s) (parts t))
    (hs : ¬ ∀ c ∈ s, Text.isBlank c) (ht : ¬ ∀ c ∈ t, Text.isBlank c) {c : Chord} :
    chord s = .ok c ↔ chord t = .ok c := by
  by_cases hfault : Faulty (parts s)
  · exact ⟨fun hc => absurd hfault (not_faulty_of_chord hs hc),
      fun hc => absurd (h.faulty_iff.1 hfault) (not_faulty_of_chord ht hc)⟩
  · rw [chord_of_not_faulty hs hfault, chord_of_not_faulty ht (mt h.faulty_iff.2 hfault),
      h.draft_eq hfault]

theorem parts_eq_iff_blank {s : Text} : parts s = [[]] ↔ ∀ c ∈ s, Text.isBlank c := by
  rw [← Text.trim_eq_nil_iff]
  constructor
  · intro h
    rw [parts, List.map_eq_singleton_iff] at h
    obtain ⟨piece, hpiece, htrim⟩ := h
    have hs : ['+'].intercalate (s.splitOn '+') = s := List.intercalate_splitOn '+'
    rw [hpiece, List.intercalate_singleton] at hs
    rw [← hs, htrim]
  · intro h
    have hplus : '+' ∉ s := by
      intro hplus
      exact absurd ((Text.trim_eq_nil_iff s).1 h '+' hplus) (by decide)
    rw [parts, List.splitOn_eq_singleton hplus, List.map_singleton, h]

theorem Rearranged.not_blank {s t : Text} (h : Rearranged s t)
    (hs : ¬ ∀ c ∈ s, Text.isBlank c) : ¬ ∀ c ∈ t, Text.isBlank c := by
  rw [← parts_eq_iff_blank] at hs ⊢
  intro ht
  have halike := h.alike
  rw [ht] at halike
  exact hs halike.eq_of_nil

theorem exists_error_of_not_isPart {s t : Text} (hs : ¬ ∀ c ∈ s, Text.isBlank c)
    (ht : t ∈ parts s) (hpart : ¬ IsPart t) : ∃ e, chord s = .error e := by
  cases h : chord s with
  | error e => exact ⟨e, rfl⟩
  | ok c => exact absurd (Or.inl ⟨t, ht, hpart⟩) (not_faulty_of_chord hs h)

/-- The chord of a pattern depends only on what its parts mean. Two patterns of known parts with the
same keys and characters and the same set of modifiers stand for the same chord or both for none.
Parts may be rearranged, named again and spelled differently without any effect on the chord, and an
unknown part is an error in every such arrangement. -/
theorem chord_eq_ok_iff_of_parts :
    (∀ s t, (¬ ∀ c ∈ s, Text.isBlank c) → (¬ ∀ c ∈ t, Text.isBlank c) →
      (∀ p ∈ parts s, IsPart p) → (∀ p ∈ parts t, IsPart p) →
      (primaries (parts s)).Perm (primaries (parts t)) →
      (∀ m, m ∈ modifiers (parts s) ↔ m ∈ modifiers (parts t)) →
      ∀ c, chord s = .ok c ↔ chord t = .ok c) ∧
    ∀ s t, (¬ ∀ c ∈ s, Text.isBlank c) → Rearranged s t →
      (∀ c, chord s = .ok c ↔ chord t = .ok c) ∧
      ((∃ p ∈ parts s, ¬ IsPart p) → ∃ e, chord t = .error e) := by
  constructor
  · intro s t hs ht hsparts htparts hprimaries hmodifiers c
    have hunknown : (unknown (parts s)).Perm (unknown (parts t)) := by
      rw [unknown_eq_nil_iff.2 hsparts, unknown_eq_nil_iff.2 htparts]
    exact Alike.chord_eq_ok_iff ⟨hprimaries, hmodifiers, hunknown⟩ hs ht
  · intro s t hs h
    have ht := h.not_blank hs
    refine ⟨fun c => h.alike.chord_eq_ok_iff hs ht, ?_⟩
    intro hunknown
    obtain ⟨p, hp, hpart⟩ := h.alike.exists_not_isPart_iff.1 hunknown
    exact exists_error_of_not_isPart ht hp hpart

theorem rearranged_hyper : Rearranged "F1+hyper".toList "HYPER + f1".toList := by
  have hbefore : parts "F1+hyper".toList = ["F1".toList, "hyper".toList] := by decide +kernel
  have hafter : parts "HYPER + f1".toList = ["HYPER".toList, "f1".toList] := by decide +kernel
  have horder : Rewrites ["F1".toList, "hyper".toList] ["hyper".toList, "F1".toList] :=
    .order (.swap _ _ _)
  have hhyper :
      Rewrites ([] ++ ["hyper".toList, "F1".toList]) ([] ++ ["HYPER".toList, "F1".toList]) :=
    .letterCase (by decide +kernel)
  have hkey : Rewrites (["HYPER".toList] ++ ["F1".toList]) (["HYPER".toList] ++ ["f1".toList]) :=
    .letterCase (by decide +kernel)
  rw [Rearranged, hbefore, hafter]
  exact .trans _ _ _ (.rel _ _ horder) (.trans _ _ _ (.rel _ _ hhyper) (.rel _ _ hkey))

theorem chord_eq_ok_iff_of_parts_escape :
    (chord "ctrl+ALT + esc+alt".toList = .ok (.named .escape { control := true, alt := true }) ↔
      chord " Escape + Alt+Control".toList =
        .ok (.named .escape { control := true, alt := true })) ∧
    Rearranged "F1+hyper".toList "HYPER + f1".toList ∧
    ∃ e, chord "HYPER + f1".toList = .error e := by
  obtain ⟨hsame, hrearranged⟩ := chord_eq_ok_iff_of_parts
  refine ⟨?_, rearranged_hyper, ?_⟩
  · apply hsame
    · exact mt parts_eq_iff_blank.2 (by decide +kernel)
    · exact mt parts_eq_iff_blank.2 (by decide +kernel)
    · exact unknown_eq_nil_iff.1 (by decide +kernel)
    · exact unknown_eq_nil_iff.1 (by decide +kernel)
    · decide +kernel
    · intro m
      cases m <;> decide +kernel
  · have hblank := mt parts_eq_iff_blank.2 (by decide +kernel : parts "F1+hyper".toList ≠ [[]])
    apply (hrearranged _ _ hblank rearranged_hyper).2
    have hunknown : unknown (parts "F1+hyper".toList) ≠ [] := by decide +kernel
    simpa [unknown_eq_nil_iff] using hunknown

end Pattern

end Keymap

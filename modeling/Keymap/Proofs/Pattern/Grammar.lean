import Keymap.Pattern
import Keymap.Proofs.Text.Trim

/-! # The grammar of patterns

What a pattern stands for, said of the list of its parts and not of the order in
which they are read. Main statement: reading a pattern decides the grammar, with
the shortest prefix that cannot be continued as the place of an early error.
-/
namespace Keymap.Pattern

def Part.primary? : Part → Option (Key ⊕ Char)
  | .key k => some (.inl k)
  | .literal c => some (.inr c)
  | .modifier _ => none

def Part.modifier? : Part → Option Modifier
  | .modifier m => some m
  | _ => none

def IsPart (t : Text) : Prop := ∃ p, Part.ofText t = .ok p

def recognized (ts : List Text) : List Part := ts.filterMap fun t => (Part.ofText t).toOption

def primaries (ts : List Text) : List (Key ⊕ Char) := (recognized ts).filterMap Part.primary?

def modifiers (ts : List Text) : List Modifier := (recognized ts).filterMap Part.modifier?

/-- No pattern starts with these parts: one of them is unknown, or two are keys or characters. -/
def Faulty (ts : List Text) : Prop := (∃ t ∈ ts, ¬ IsPart t) ∨ 2 ≤ (primaries ts).length

/-- The parts `before` and then `last` are the shortest faulty prefix of a list of parts. -/
structure FirstFault (ts before : List Text) (last : Text) : Prop where
  initial : before ++ [last] <+: ts
  faulty : Faulty (before ++ [last])
  shortest : ∀ us, us <+: ts → Faulty us → (before ++ [last]).length ≤ us.length

/-- What a pattern stands for, or why it stands for nothing. -/
inductive StandsFor (s : Text) : Except PatternError Chord → Prop
  | blank (hs : ∀ c ∈ s, Text.isBlank c) : StandsFor s (.ok .unconfigured)
  | unrecognized {before last} (hs : ¬ ∀ c ∈ s, Text.isBlank c)
      (h : FirstFault (parts s) before last) (hlast : ¬ IsPart last) :
      StandsFor s (.error (.unrecognized last))
  | ambiguous {before last x y} (hs : ¬ ∀ c ∈ s, Text.isBlank c)
      (h : FirstFault (parts s) before last) (hlast : IsPart last)
      (hxy : primaries (before ++ [last]) = [x, y]) (hkind : x.isLeft = y.isLeft) :
      StandsFor s (.error .ambiguousPrimary)
  | conflicting {before last x y} (hs : ¬ ∀ c ∈ s, Text.isBlank c)
      (h : FirstFault (parts s) before last) (hlast : IsPart last)
      (hxy : primaries (before ++ [last]) = [x, y]) (hkind : x.isLeft ≠ y.isLeft) :
      StandsFor s (.error .conflictingPrimary)
  | missing (hs : ¬ ∀ c ∈ s, Text.isBlank c) (h : ¬ Faulty (parts s))
      (hp : primaries (parts s) = []) : StandsFor s (.error .missingPrimary)
  | modified {c t m} (hs : ¬ ∀ c ∈ s, Text.isBlank c) (h : ¬ Faulty (parts s))
      (hp : primaries (parts s) = [.inr c]) (ht : t ∈ parts s)
      (hm : Part.ofText t = .ok (.modifier m)) : StandsFor s (.error .modifiedLiteral)
  | named {k ms} (hs : ¬ ∀ c ∈ s, Text.isBlank c) (h : ¬ Faulty (parts s))
      (hp : primaries (parts s) = [.inl k])
      (hms : ∀ m, ms.has m = true ↔ ∃ t ∈ parts s, Part.ofText t = .ok (.modifier m)) :
      StandsFor s (.ok (.named k ms))
  | literal {c t} (hs : ¬ ∀ c ∈ s, Text.isBlank c) (ht : parts s = [t])
      (hc : Part.ofText t = .ok (.literal c)) : StandsFor s (.ok (.literal c))

theorem primaries_append (ts us : List Text) :
    primaries (ts ++ us) = primaries ts ++ primaries us := by
  simp [primaries, recognized]

theorem modifiers_append (ts us : List Text) :
    modifiers (ts ++ us) = modifiers ts ++ modifiers us := by
  simp [modifiers, recognized]

theorem mem_recognized {ts : List Text} {p : Part} :
    p ∈ recognized ts ↔ ∃ t ∈ ts, Part.ofText t = .ok p := by
  have hok (t : Text) : (Part.ofText t).toOption = some p ↔ Part.ofText t = .ok p := by
    cases Part.ofText t <;> simp [Except.toOption]
  rw [recognized, List.mem_filterMap]
  simp only [hok]

theorem mem_primaries {ts : List Text} {x : Key ⊕ Char} :
    x ∈ primaries ts ↔ ∃ t ∈ ts, ∃ p, Part.ofText t = .ok p ∧ p.primary? = some x := by
  rw [primaries, List.mem_filterMap]
  constructor
  · rintro ⟨p, hp, hx⟩
    obtain ⟨t, ht, hp⟩ := mem_recognized.1 hp
    exact ⟨t, ht, p, hp, hx⟩
  · rintro ⟨t, ht, p, hp, hx⟩
    exact ⟨p, mem_recognized.2 ⟨t, ht, hp⟩, hx⟩

theorem mem_modifiers {ts : List Text} {m : Modifier} :
    m ∈ modifiers ts ↔ ∃ t ∈ ts, Part.ofText t = .ok (.modifier m) := by
  have hm (p : Part) : p.modifier? = some m ↔ p = .modifier m := by
    cases p <;> simp [Part.modifier?]
  rw [modifiers, List.mem_filterMap]
  simp only [hm, exists_eq_right, mem_recognized]

theorem primaries_singleton {t : Text} {p : Part} (h : Part.ofText t = .ok p) :
    primaries [t] = p.primary?.toList := by
  cases hp : p.primary? <;> simp [primaries, recognized, h, Except.toOption, hp]

theorem modifiers_singleton {t : Text} {p : Part} (h : Part.ofText t = .ok p) :
    modifiers [t] = p.modifier?.toList := by
  cases hp : p.modifier? <;> simp [modifiers, recognized, h, Except.toOption, hp]

theorem Faulty.append {ts : List Text} (h : Faulty ts) (us : List Text) : Faulty (ts ++ us) := by
  rcases h with ⟨t, ht, hp⟩ | h
  · exact Or.inl ⟨t, List.mem_append_left us ht, hp⟩
  · rw [Faulty, primaries_append, List.length_append]
    exact Or.inr (by omega)

theorem isPart_of_not_faulty {ts : List Text} (h : ¬ Faulty ts) {t : Text} (ht : t ∈ ts) :
    IsPart t := by
  by_contra hp
  exact h (Or.inl ⟨t, ht, hp⟩)

theorem length_primaries_of_not_faulty {ts : List Text} (h : ¬ Faulty ts) :
    (primaries ts).length ≤ 1 := by
  by_contra hl
  exact h (Or.inr (by omega))

theorem Faulty.of_initial {ts us : List Text} (h : Faulty ts) (hu : ts <+: us) : Faulty us := by
  obtain ⟨rest, rfl⟩ := hu
  exact h.append rest

theorem exists_firstFault {ts : List Text} (h : Faulty ts) :
    ∃ before last, FirstFault ts before last := by
  induction ts using List.reverseRecOn with
  | nil => simp [Faulty, primaries, recognized] at h
  | append_singleton ts t ih =>
    by_cases hts : Faulty ts
    · obtain ⟨before, last, hf⟩ := ih hts
      refine ⟨before, last, hf.initial.trans (List.prefix_append ts [t]), hf.faulty, ?_⟩
      intro us hus hu
      rcases List.prefix_concat_iff.1 hus with rfl | hus
      · exact hf.initial.length_le.trans (List.prefix_append ts [t]).length_le
      · exact hf.shortest us hus hu
    · refine ⟨ts, t, List.prefix_rfl, h, ?_⟩
      intro us hus hu
      rcases List.prefix_concat_iff.1 hus with rfl | hus
      · exact le_rfl
      · exact absurd (hu.of_initial hus) hts

theorem FirstFault.not_faulty_before {ts before : List Text} {last : Text}
    (h : FirstFault ts before last) : ¬ Faulty before := by
  intro hb
  have hl := h.shortest before ((List.prefix_append before [last]).trans h.initial) hb
  rw [List.length_append, List.length_singleton] at hl
  omega

/-- Where the last part of the shortest faulty prefix is known, it is the second key or character.
-/
theorem FirstFault.primaries_eq {ts before : List Text} {last : Text}
    (h : FirstFault ts before last) (hlast : IsPart last) :
    ∃ x y, primaries before = [x] ∧ primaries [last] = [y] := by
  obtain ⟨p, hp⟩ := hlast
  have hbefore := length_primaries_of_not_faulty h.not_faulty_before
  have htwo : 2 ≤ (primaries (before ++ [last])).length := by
    rcases h.faulty with ⟨t, ht, hn⟩ | htwo
    · rcases List.mem_append.1 ht with ht | ht
      · exact absurd (isPart_of_not_faulty h.not_faulty_before ht) hn
      · rw [List.mem_singleton.1 ht] at hn
        exact absurd ⟨p, hp⟩ hn
    · exact htwo
  rw [primaries_append, primaries_singleton hp, List.length_append] at htwo
  have hone : p.primary?.toList.length ≤ 1 := by cases p.primary? <;> simp
  obtain ⟨x, hx⟩ := List.length_eq_one_iff.1 (by omega : (primaries before).length = 1)
  obtain ⟨y, hy⟩ := List.length_eq_one_iff.1 (by omega : p.primary?.toList.length = 1)
  exact ⟨x, y, hx, by rw [primaries_singleton hp, hy]⟩

def draft (ts : List Text) : Draft := ⟨Modifiers.ofList (modifiers ts), (primaries ts).head?⟩

theorem draft_append_singleton {ts : List Text} {t : Text} {p : Part}
    (h : Part.ofText t = .ok p) :
    draft (ts ++ [t]) = ⟨Modifiers.ofList (modifiers ts ++ p.modifier?.toList),
      (primaries ts ++ p.primary?.toList).head?⟩ := by
  rw [draft, modifiers_append, primaries_append, modifiers_singleton h, primaries_singleton h]

theorem Draft.addText_of_ok {d : Draft} {t : Text} {p : Part} (h : Part.ofText t = .ok p) :
    d.addText t = d.add p := by
  rw [Draft.addText, h]
  rfl

theorem Part.ofText_of_not_isPart {t : Text} (h : ¬ IsPart t) :
    Part.ofText t = .error (.unrecognized t) := by
  cases hr : Part.ofText t with
  | ok p => exact absurd ⟨p, hr⟩ h
  | error e =>
    unfold Part.ofText at hr
    split at hr <;> simp_all

theorem Draft.addText_of_not_isPart {d : Draft} {t : Text} (h : ¬ IsPart t) :
    d.addText t = .error (.unrecognized t) := by
  rw [Draft.addText, Part.ofText_of_not_isPart h]
  rfl

/-- One more part that makes no fault is taken in. -/
theorem addText_draft {ts : List Text} {t : Text} (h : ¬ Faulty (ts ++ [t])) :
    (draft ts).addText t = .ok (draft (ts ++ [t])) := by
  obtain ⟨p, hp⟩ := isPart_of_not_faulty h (List.mem_append_right ts List.mem_cons_self)
  have hl := length_primaries_of_not_faulty h
  rw [primaries_append, primaries_singleton hp, List.length_append] at hl
  rw [Draft.addText_of_ok hp, draft_append_singleton hp]
  cases p with
  | modifier m => simp [Draft.add, draft, Part.modifier?, Part.primary?,
      Modifiers.ofList_append_singleton]
  | key k =>
    have hts : primaries ts = [] := List.length_eq_zero_iff.1 (by simpa [Part.primary?] using hl)
    simp [Draft.add, draft, Part.modifier?, Part.primary?, hts]
  | literal c =>
    have hts : primaries ts = [] := List.length_eq_zero_iff.1 (by simpa [Part.primary?] using hl)
    simp [Draft.add, draft, Part.modifier?, Part.primary?, hts]

theorem foldlM_addText {ts : List Text} (h : ¬ Faulty ts) :
    ts.foldlM Draft.addText {} = .ok (draft ts) := by
  induction ts using List.reverseRecOn with
  | nil => rfl
  | append_singleton ts t ih =>
    have hts : ¬ Faulty ts := fun hts => h (hts.append [t])
    rw [List.foldlM_append, ih hts]
    change (List.foldlM Draft.addText (draft ts) [t]) = _
    rw [List.foldlM_cons, addText_draft h]
    rfl

/-- Reading ends at the shortest faulty prefix; what follows is not looked at. -/
theorem FirstFault.foldlM_addText {ts before : List Text} {last : Text} {e : PatternError}
    (h : FirstFault ts before last) (he : (draft before).addText last = .error e) :
    ts.foldlM Draft.addText {} = .error e := by
  obtain ⟨after, rfl⟩ := h.initial
  rw [List.append_assoc, List.foldlM_append, Pattern.foldlM_addText h.not_faulty_before]
  change List.foldlM Draft.addText (draft before) (last :: after) = _
  rw [List.foldlM_cons, he]
  rfl

theorem length_primaries_add_length_modifiers {ts : List Text} (h : ∀ t ∈ ts, IsPart t) :
    (primaries ts).length + (modifiers ts).length = ts.length := by
  induction ts with
  | nil => rfl
  | cons t ts ih =>
    obtain ⟨p, hp⟩ := h t List.mem_cons_self
    have hts := ih fun u hu => h u (List.mem_cons_of_mem t hu)
    have hone : p.primary?.toList.length + p.modifier?.toList.length = 1 := by cases p <;> rfl
    rw [← List.singleton_append, primaries_append, modifiers_append, primaries_singleton hp,
      modifiers_singleton hp]
    simp only [List.length_append, List.length_singleton]
    omega

theorem Draft.add_of_primary {d : Draft} {p : Part} {x y : Key ⊕ Char}
    (hx : d.primary? = some x) (hy : p.primary? = some y) :
    d.add p = .error (if x.isLeft = y.isLeft then .ambiguousPrimary else .conflictingPrimary) := by
  cases p with
  | modifier m => simp [Part.primary?] at hy
  | key k =>
    obtain rfl := Option.some.inj hy
    cases x <;> simp [Draft.add, hx]
  | literal c =>
    obtain rfl := Option.some.inj hy
    cases x <;> simp [Draft.add, hx]

theorem chord_of_blank {s : Text} (hs : ∀ c ∈ s, Text.isBlank c) :
    chord s = .ok .unconfigured := by
  rw [chord, if_pos ((Text.isEmpty_trim_iff s).2 hs)]

theorem chord_of_not_faulty {s : Text} (hs : ¬ ∀ c ∈ s, Text.isBlank c)
    (h : ¬ Faulty (parts s)) : chord s = (draft (parts s)).chord := by
  rw [chord, if_neg (fun ht => hs ((Text.isEmpty_trim_iff s).1 ht)), foldlM_addText h]
  rfl

theorem chord_of_firstFault {s : Text} {before : List Text} {last : Text} {e : PatternError}
    (hs : ¬ ∀ c ∈ s, Text.isBlank c) (h : FirstFault (parts s) before last)
    (he : (draft before).addText last = .error e) : chord s = .error e := by
  rw [chord, if_neg (fun ht => hs ((Text.isEmpty_trim_iff s).1 ht)), h.foldlM_addText he]
  rfl

/-- The error of a second key or character. -/
theorem FirstFault.addText_draft {ts before : List Text} {last : Text} {x y : Key ⊕ Char}
    (h : FirstFault ts before last) (hlast : IsPart last)
    (hxy : primaries (before ++ [last]) = [x, y]) :
    (draft before).addText last =
      .error (if x.isLeft = y.isLeft then .ambiguousPrimary else .conflictingPrimary) := by
  obtain ⟨x', y', hx, hy⟩ := h.primaries_eq hlast
  obtain ⟨p, hp⟩ := hlast
  rw [primaries_append, hx, hy] at hxy
  obtain ⟨rfl, rfl⟩ : x' = x ∧ y' = y := by simpa using hxy
  have hp' : p.primary? = some y' := by
    rw [primaries_singleton hp, Option.toList_eq_singleton_iff] at hy
    exact hy
  rw [Draft.addText_of_ok hp, Draft.add_of_primary (by rw [draft, hx]; rfl) hp']

theorem StandsFor.chord_eq {s : Text} {r : Except PatternError Chord} (h : StandsFor s r) :
    chord s = r := by
  cases h with
  | blank hs => exact chord_of_blank hs
  | unrecognized hs h hlast => exact chord_of_firstFault hs h (Draft.addText_of_not_isPart hlast)
  | ambiguous hs h hlast hxy hkind =>
    exact chord_of_firstFault hs h (by rw [h.addText_draft hlast hxy, if_pos hkind])
  | conflicting hs h hlast hxy hkind =>
    exact chord_of_firstFault hs h (by rw [h.addText_draft hlast hxy, if_neg hkind])
  | missing hs h hp =>
    rw [chord_of_not_faulty hs h, Draft.chord, draft, hp]
    rfl
  | modified hs h hp ht hm =>
    have hheld : (Modifiers.ofList (modifiers (parts s))).isEmpty = false := by
      rw [Bool.eq_false_iff, Ne, Modifiers.isEmpty_iff]
      intro hnone
      have hm' := (Modifiers.has_ofList _ _).2 (mem_modifiers.2 ⟨_, ht, hm⟩)
      rw [hnone] at hm'
      cases hm'
    rw [chord_of_not_faulty hs h, Draft.chord, draft, hp]
    simp [hheld]
  | @named k ms hs h hp hms =>
    have heq : Modifiers.ofList (modifiers (parts s)) = ms := by
      apply Modifiers.ext_has
      intro m
      rw [Bool.eq_iff_iff, Modifiers.has_ofList, mem_modifiers, hms]
    rw [chord_of_not_faulty hs h, Draft.chord, draft, hp, heq]
    rfl
  | @literal c t hs ht hc =>
    have hprim : primaries [t] = [.inr c] := primaries_singleton hc
    have hmod : modifiers [t] = [] := modifiers_singleton hc
    have h : ¬ Faulty (parts s) := by
      rw [ht]
      rintro (⟨u, hu, hn⟩ | htwo)
      · exact hn ⟨_, List.mem_singleton.1 hu ▸ hc⟩
      · rw [hprim, List.length_singleton] at htwo
        omega
    rw [chord_of_not_faulty hs h, Draft.chord, draft, ht, hprim, hmod]
    rfl

/-- The grammar gives every text a meaning or an error. -/
theorem exists_standsFor (s : Text) : ∃ r, StandsFor s r := by
  by_cases hs : ∀ c ∈ s, Text.isBlank c
  · exact ⟨_, .blank hs⟩
  by_cases h : Faulty (parts s)
  · obtain ⟨before, last, hf⟩ := exists_firstFault h
    by_cases hlast : IsPart last
    · obtain ⟨x, y, hx, hy⟩ := hf.primaries_eq hlast
      have hxy : primaries (before ++ [last]) = [x, y] := by
        rw [primaries_append, hx, hy]
        rfl
      by_cases hkind : x.isLeft = y.isLeft
      · exact ⟨_, .ambiguous hs hf hlast hxy hkind⟩
      · exact ⟨_, .conflicting hs hf hlast hxy hkind⟩
    · exact ⟨_, .unrecognized hs hf hlast⟩
  · have hlen := length_primaries_of_not_faulty h
    have hall := length_primaries_add_length_modifiers fun t ht => isPart_of_not_faulty h ht
    match hp : primaries (parts s) with
    | [] => exact ⟨_, .missing hs h hp⟩
    | [.inl k] =>
      have hms (m : Modifier) : (Modifiers.ofList (modifiers (parts s))).has m = true ↔
          ∃ t ∈ parts s, Part.ofText t = .ok (.modifier m) := by
        rw [Modifiers.has_ofList, mem_modifiers]
      exact ⟨_, .named hs h hp hms⟩
    | [.inr c] =>
      match hm : modifiers (parts s) with
      | m :: _ =>
        obtain ⟨t, ht, hmt⟩ := mem_modifiers.1 (hm ▸ List.mem_cons_self : m ∈ modifiers (parts s))
        exact ⟨_, .modified hs h hp ht hmt⟩
      | [] =>
        rw [hp, hm] at hall
        obtain ⟨t, ht⟩ := List.length_eq_one_iff.1 hall.symm
        obtain ⟨p, hpt⟩ := isPart_of_not_faulty h (ht ▸ List.mem_cons_self : t ∈ parts s)
        rw [ht, primaries_singleton hpt] at hp
        obtain rfl : p = .literal c := by cases p <;> simp_all [Part.primary?]
        exact ⟨_, .literal hs ht hpt⟩
    | _ :: _ :: _ => simp [hp] at hlen

theorem standsFor_chord (s : Text) : StandsFor s (chord s) := by
  obtain ⟨r, hr⟩ := exists_standsFor s
  rw [hr.chord_eq]
  exact hr

theorem chord_eq_unconfigured_iff {s : Text} :
    chord s = .ok .unconfigured ↔ ∀ c ∈ s, Text.isBlank c := by
  constructor
  · intro h
    have hs := standsFor_chord s
    rw [h] at hs
    cases hs with
    | blank hs => exact hs
  · exact chord_of_blank

/-- Reading a pattern decides the grammar: it gives a chord or an error exactly where the grammar
does, and the same one. -/
theorem chord_eq_iff_standsFor (s : Text) (r : Except PatternError Chord) :
    chord s = r ↔ StandsFor s r := by
  constructor
  · rintro rfl
    exact standsFor_chord s
  · exact StandsFor.chord_eq

end Keymap.Pattern

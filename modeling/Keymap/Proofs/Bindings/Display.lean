import Keymap.Proofs.ConfigFile.Listing

/-! # Lists of chords as they are shown

The chords of a category are shown in a row, with a comma and a space between each two of them. A
comma can be a chord itself, so the commas do not say where a chord ends; but no chord is shown with
a space or as nothing at all. Main statement: two rows are the same only if the chords are.
-/
namespace Keymap

namespace Text

/-- Texts are the same up to the first place of a mark and behind it. -/
theorem eq_and_eq_of_append_cons {mark : Char} {s s' rest rest' : Text} (hs : mark ∉ s)
    (hs' : mark ∉ s') (h : s ++ mark :: rest = s' ++ mark :: rest') : s = s' ∧ rest = rest' := by
  have hbefore : s = s' := by
    rw [← (run_append_cons hs rest).takeWhile_eq, h, (run_append_cons hs' rest').takeWhile_eq]
  refine ⟨hbefore, ?_⟩
  rw [hbefore] at h
  exact (List.cons.inj (List.append_cancel_left h)).2

variable {front : Text} {mark : Char}

theorem join_cons_cons (separator s t : Text) (ts : List Text) :
    join separator (s :: t :: ts) = s ++ separator ++ join separator (t :: ts) :=
  List.intercalate_cons_cons

theorem join_ne_nil {separator s : Text} (hs : s ≠ []) (ts : List Text) :
    join separator (s :: ts) ≠ [] := by
  cases ts with
  | nil => simpa [join] using hs
  | cons t ts => simp [join_cons_cons, hs]

/-- Texts can be told from the row that they make if the separator ends with a mark that none of
them contains and none of them is empty. The rest of the separator may occur in them. -/
theorem join_inj (hfront : mark ∉ front) {ts us : List Text} (hts : ∀ t ∈ ts, t ≠ [] ∧ mark ∉ t)
    (hus : ∀ u ∈ us, u ≠ [] ∧ mark ∉ u)
    (h : join (front ++ [mark]) ts = join (front ++ [mark]) us) : ts = us := by
  have hend {s : Text} (hs : mark ∉ s) : mark ∉ s ++ front := by simp [hs, hfront]
  have hmore {s t u : Text} {rest : List Text} (hs : mark ∉ s) :
      s ≠ join (front ++ [mark]) (t :: u :: rest) := by
    rintro rfl
    simp [join_cons_cons] at hs
  induction ts generalizing us with
  | nil =>
    cases us with
    | nil => rfl
    | cons u us => exact absurd h.symm (join_ne_nil (hus u List.mem_cons_self).1 us)
  | cons t ts ih =>
    obtain ⟨ht, hts⟩ := List.forall_mem_cons.1 hts
    cases us with
    | nil => exact absurd h (join_ne_nil ht.1 ts)
    | cons u us =>
      obtain ⟨hu, hus⟩ := List.forall_mem_cons.1 hus
      cases ts with
      | nil =>
        cases us with
        | nil => simpa [join] using h
        | cons v us =>
          rw [join, List.intercalate_singleton] at h
          exact absurd h (hmore ht.2)
      | cons t' ts =>
        cases us with
        | nil =>
          rw [join, join, List.intercalate_singleton] at h
          exact absurd h.symm (hmore hu.2)
        | cons u' us =>
          rw [join_cons_cons, join_cons_cons, ← List.append_assoc, ← List.append_assoc,
            List.append_assoc _ [mark], List.append_assoc _ [mark]] at h
          obtain ⟨hfirst, hrest⟩ := eq_and_eq_of_append_cons (hend ht.2) (hend hu.2) h
          rw [List.append_cancel_right hfirst, ih hts hus hrest]

end Text

namespace ChordList

variable {chords others : ChordList}

theorem mem_map_display (h : ∀ chord ∈ chords, chord.IsReadable ∧ chord.isConfigured) :
    ∀ t ∈ chords.map Chord.display, t ≠ [] ∧ ' ' ∉ t := by
  intro t ht
  obtain ⟨chord, hchord, rfl⟩ := List.mem_map.1 ht
  obtain ⟨hread, hconf⟩ := h chord hchord
  refine ⟨Chord.display_ne_nil hconf, ?_⟩
  intro hspace
  exact Chord.not_isBlank_of_mem_display hread hspace (by decide)

theorem display_inj (h : ∀ chord ∈ chords, chord.IsReadable ∧ chord.isConfigured)
    (hothers : ∀ chord ∈ others, chord.IsReadable ∧ chord.isConfigured)
    (hshown : display chords = display others) : chords = others := by
  have hparts : chords.map Chord.display = others.map Chord.display :=
    Text.join_inj (by decide : ' ' ∉ [',']) (mem_map_display h) (mem_map_display hothers) hshown
  have hchords := Category.commitCompletion.chordsOf_map_display h
  rw [hparts, Category.commitCompletion.chordsOf_map_display hothers] at hchords
  exact (Except.ok.inj hchords).symm

end ChordList

namespace Bindings

/-- The row that is shown for a category tells its chords and their order, whatever bindings it is
taken from and although the sign between chords can be a chord itself. -/
theorem display_get_eq_iff {b b' : Bindings} (hb : b.Assembled) (hb' : b'.Assembled)
    (c c' : Category) :
    ChordList.display (b.get c) = ChordList.display (b'.get c') ↔ b.get c = b'.get c' := by
  constructor
  · exact ChordList.display_inj (hb.wellFormed c) (hb'.wellFormed c')
  · exact congrArg ChordList.display

def commas : Bindings :=
  { default with
    insertNewline := [.literal ',', .literal ',', .literal '"']
    submitInput := [.literal ',', .literal '"', .literal ','] }

theorem display_get_eq_iff_commas :
    commas.Assembled ∧ commas.get .insertNewline ≠ commas.get .submitInput ∧
      ChordList.display (commas.get .insertNewline) = ",, ,, \"".toList ∧
      ChordList.display (commas.get .insertNewline) ≠
        ChordList.display (commas.get .submitInput) := by
  have hbuild : build commas.patterns = .ok commas := by decide +kernel
  have hne : commas.get .insertNewline ≠ commas.get .submitInput := by decide
  exact ⟨.built hbuild, hne, rfl,
    mt (display_get_eq_iff (.built hbuild) (.built hbuild) _ _).1 hne⟩

end Bindings

end Keymap

import Keymap.Proofs.Files.Template

/-! # Writing and removing a file

What is written through a path is read back through it, and what is removed is not found any more.
Either way nothing else in the tree is any different.
-/
namespace Keymap

namespace Path

variable {path : Text}

theorem join_concat (segment : Text) {others : List Text} (h : others ≠ []) :
    Text.join ['/'] (others ++ [segment]) = Text.join ['/'] others ++ '/' :: segment := by
  induction others with
  | nil => contradiction
  | cons first others ih =>
    by_cases hothers : others = []
    · simp [hothers, Text.join]
    · rw [List.cons_append, join_cons first (by simp), ih hothers, join_cons first hothers]
      simp

/-- An empty segment at the end is what stands behind a slash. -/
theorem getLast?_eq_slash_of_splitOn {outer : List Text} (hpath : path ≠ [])
    (h : path.splitOn '/' = outer ++ [[]]) : path.getLast? = some '/' := by
  have hjoin : Text.join ['/'] (outer ++ [[]]) = path := by
    rw [← h]
    exact List.intercalate_splitOn '/'
  by_cases houter : outer = []
  · rw [houter] at hjoin
    exact absurd hjoin.symm hpath
  · rw [← hjoin, join_concat [] houter, List.getLast?_concat]

end Path

namespace FileTree

open Keymap.Path

variable {t t' : FileTree} {place up q : Location} {name path : Text} {bytes : ByteArray}

theorem get?_erase (hplace : place ≠ []) (q : Location) :
    (t.erase place).get? q = if q = place then none else t.get? q := by
  cases q with
  | nil => simp [get?, Ne.symm hplace]
  | cons name up =>
    by_cases hq : name :: up = place
    · rw [if_pos hq, get?, List.lookup_eq_none_iff]
      intro e he
      have hne := (List.mem_filter.1 he).2
      simp only [decide_eq_true_eq] at hne
      simpa [hq] using Ne.symm hne
    · rw [if_neg hq]
      exact lookup_filter_ne t.entries hq

theorem get?_note_erase {change : Change} (hplace : place ≠ []) (q : Location) :
    ((t.erase place).note change).get? q = if q = place then none else t.get? q := by
  rw [get?_note, get?_erase hplace]

theorem isDirectory_of_site (h : t.site path = .ok (up, name)) : t.isDirectory up := by
  unfold site at h
  split at h
  case h_1 =>
    split_ifs at h
    obtain ⟨rfl, -⟩ := Prod.mk.inj (Except.ok.inj h)
    rfl
  case h_2 =>
    obtain ⟨place, -, h⟩ := Traversal.bind_eq_ok_iff.1 h
    split_ifs at h with hdir
    obtain ⟨rfl, -⟩ := Prod.mk.inj (Except.ok.inj h)
    exact hdir

theorem ne_nil_of_isDirectory_eq_false (h : t.isDirectory place = false) : place ≠ [] :=
  (ne_of_isDirectory rfl h).symm

/-- A path that does not end in a slash ends in the name of its new entry. -/
theorem exists_walk_of_site (hsite : t.site path = .ok (up, name)) (hdot : name ≠ dot)
    (hslash : path.getLast? ≠ some '/') :
    ∃ outer, path.splitOn '/' = outer ++ [name] ∧ isIdle name = false ∧
      t.Enters (t.start path) outer up := by
  unfold site at hsite
  split at hsite
  case h_1 =>
    split_ifs at hsite
    obtain ⟨-, rfl⟩ := Prod.mk.inj (Except.ok.inj hsite)
    exact absurd rfl hdot
  case h_2 last outer hup =>
    obtain ⟨place, hwalk, hsite⟩ := Traversal.bind_eq_ok_iff.1 hsite
    split_ifs at hsite with hdir
    obtain ⟨rfl, rfl⟩ := Prod.mk.inj (Except.ok.inj hsite)
    obtain ⟨hidle, slashes, hslashes, hsplit⟩ := splitOn_eq_of_dropWhile hup
    have hpath : path ≠ [] := by
      rintro rfl
      cases hup
    obtain rfl | ⟨before, segment, rfl⟩ := List.eq_nil_or_concat' slashes
    case inr =>
      obtain rfl := hslashes segment List.mem_concat_self
      rw [← List.cons_append, ← List.append_assoc] at hsplit
      exact absurd (getLast?_eq_slash_of_splitOn hpath hsplit) hslash
    exact ⟨outer.reverse, hsplit, hidle.trans (beq_false_of_ne hdot), hwalk, hdir⟩

/-- Behind a directory and a slash a proper name is a new entry there, and that is what the path
targets. -/
theorem site_iff_targets : t.site path = .ok (up, name) ∧ name ≠ dot ∧ name ≠ dotDot ∧
    path.getLast? ≠ some '/' ↔ t.Targets path (name :: up) ∧ EndsInName path := by
  constructor
  · rintro ⟨hsite, hdot, hdots, hslash⟩
    obtain ⟨outer, hsplit, hidle, henters⟩ := exists_walk_of_site hsite hdot hslash
    have hnames : names path = outer.filter (!isIdle ·) ++ [name] := by
      simp [names, hsplit, hidle]
    have hname : fileName? path = some name := by
      rw [fileName?_eq_some_iff, hnames, List.getLast?_concat]
      exact ⟨rfl, hdots⟩
    refine ⟨⟨name, up, hname, ?_, rfl⟩, name, by simp [hsplit], hidle⟩
    rw [resolve_directory_of_fileName? hname, hnames, List.dropLast_concat, enters_filter_iff]
    exact henters
  · rintro ⟨⟨last, place, hname, hup, heq⟩, segment, hsegment, hidle⟩
    obtain ⟨rfl, rfl⟩ := List.cons.inj heq
    obtain ⟨outer, hsplit⟩ := List.getLast?_eq_some_iff.1 hsegment
    obtain ⟨hlast, hdots⟩ := fileName?_eq_some_iff.1 hname
    have hnames : names path = outer.filter (!isIdle ·) ++ [segment] := by
      simp [names, hsplit, hidle]
    rw [hnames, List.getLast?_concat, Option.some_inj] at hlast
    obtain rfl := hlast
    rw [resolve_directory_of_fileName? hname, hnames, List.dropLast_concat,
      enters_filter_iff] at hup
    have hnonempty : segment.isEmpty = false := by
      simpa [isIdle] using (Bool.or_eq_false_iff.1 hidle).1
    refine ⟨?_, ?_, hdots, ?_⟩
    · simp [site, hsplit, hnonempty, hup.1, hup.2, bind, Except.bind]
    · rintro rfl
      cases hidle
    · intro hslash
      obtain ⟨front, rfl⟩ := List.getLast?_eq_some_iff.1 hslash
      rw [List.splitOn_append_cons_self] at hsplit
      obtain ⟨-, hempty⟩ := List.append_inj' hsplit rfl
      rw [← List.singleton_inj.1 hempty] at hidle
      cases hidle

theorem writeFile_eq_ok_iff : t.writeFile path bytes = .ok t' ↔ ∃ place,
    t.Targets path place ∧ EndsInName path ∧ t.isDirectory place = false ∧
      t' = (t.put place (.file bytes)).note
        (if (t.get? place).isSome then .written place else .created place) := by
  rw [writeFile, Traversal.bind_eq_ok_iff]
  constructor
  · rintro ⟨⟨up, name⟩, hsite, h⟩
    dsimp only at h
    split_ifs at h with hname
    simp only [not_or] at hname
    obtain ⟨htarget, hend⟩ := site_iff_targets.1 ⟨hsite, hname⟩
    refine ⟨name :: up, htarget, hend, ?_⟩
    cases hplace : t.get? (name :: up) with
    | none =>
      rw [hplace] at h
      exact ⟨by simp [isDirectory, hplace], (Except.ok.inj h).symm⟩
    | some entry =>
      rw [hplace] at h
      cases entry with
      | directory => cases h
      | file content => exact ⟨by simp [isDirectory, hplace], (Except.ok.inj h).symm⟩
  · rintro ⟨_, htarget, hend, hdir, rfl⟩
    obtain ⟨name, up, -, -, rfl⟩ := id htarget
    obtain ⟨hsite, hdot, hdots, hslash⟩ := site_iff_targets.2 ⟨htarget, hend⟩
    refine ⟨(up, name), hsite, ?_⟩
    simp only [hdot, hdots, hslash, or_self, if_false]
    cases hplace : t.get? (name :: up) with
    | none => rfl
    | some entry =>
      cases entry with
      | directory => simp [isDirectory, hplace] at hdir
      | file content => rfl

/-- A file that is written is read back, and no other entry changes. -/
theorem writeFile_frame (h : t.writeFile path bytes = .ok t') :
    t'.read path = .content bytes ∧
      ∃ place, t.Targets path place ∧ ∀ other ≠ place, t'.get? other = t.get? other := by
  obtain ⟨place, htarget, hend, hdir, ht'⟩ := writeFile_eq_ok_iff.1 h
  generalize (if (t.get? place).isSome then Change.written place else .created place) = change
    at ht'
  subst ht'
  have hretains : t.Retains ((t.put place (.file bytes)).note change) :=
    retains_put_file htarget.ne_nil hdir
  constructor
  · have hplace : ((t.put place (.file bytes)).note change).get? place = some (.file bytes) := by
      rw [get?_note_put htarget.ne_nil, if_pos rfl]
    have hresolve := resolve_of_targets (hretains.targets htarget) (by simp [hplace]) hend
    simp [read, hresolve, hplace]
  · refine ⟨place, htarget, ?_⟩
    intro other hother
    rw [get?_note_put htarget.ne_nil, if_neg hother]

theorem removeFile_eq_ok_iff : t.removeFile path = .ok t' ↔
    ∃ place, t.resolve path = .ok place ∧ t.isDirectory place = false ∧
      t' = (t.erase place).note (.removed place) := by
  rw [removeFile, Traversal.bind_eq_ok_iff]
  apply exists_congr
  intro place
  apply and_congr_right
  intro _
  cases t.isDirectory place <;> simp [eq_comm]

/-- What is not a directory can go without any directory. -/
theorem isDirectory_note_erase {change : Change} (hdir : t.isDirectory place = false)
    (hq : t.isDirectory q) : ((t.erase place).note change).isDirectory q := by
  rw [isDirectory_iff, get?_note_erase (ne_nil_of_isDirectory_eq_false hdir),
    if_neg (ne_of_isDirectory hq hdir)]
  exact isDirectory_iff.1 hq

theorem erase_retains {change : Change} (hplace : place ≠ []) :
    ((t.erase place).note change).Retains t := by
  refine ⟨?_, ?_, rfl⟩
  · intro q hq
    rw [isDirectory_iff, get?_note_erase hplace] at hq
    split_ifs at hq
    exact isDirectory_iff.2 hq
  · intro q hq
    rw [get?_note_erase hplace] at hq
    split_ifs at hq
    · cases hq
    · exact hq

/-- A file that is removed is missing from then on, and no other entry changes. -/
theorem removeFile_frame (h : t.removeFile path = .ok t') :
    t'.read path = .missing ∧
      ∃ place, t.resolve path = .ok place ∧ ∀ other ≠ place, t'.get? other = t.get? other := by
  obtain ⟨place, hresolve, hdir, rfl⟩ := removeFile_eq_ok_iff.1 h
  have hplace := ne_nil_of_isDirectory_eq_false hdir
  constructor
  · rw [read]
    split
    case h_1 => rfl
    case h_2 target htarget =>
      have hsame := (erase_retains hplace).resolve htarget
      obtain rfl : place = target := Except.ok.inj (hresolve.symm.trans hsame)
      rw [get?_note_erase hplace, if_pos rfl]
  · refine ⟨place, hresolve, ?_⟩
    intro other hother
    rw [get?_note_erase hplace, if_neg hother]

end FileTree

end Keymap

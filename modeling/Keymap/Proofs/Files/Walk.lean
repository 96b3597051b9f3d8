import Keymap.Files.Tree
import Keymap.Proofs.Files.Path
import Keymap.Proofs.Traversal

/-! # Walks through a file tree

Which directory a path leads to is decided by its names. A tree in which nothing
goes away leads wherever it led before. Without two dots a walk goes straight down,
so that it can be taken in every tree that has the directory at its end.
-/
namespace Keymap.FileTree

open Keymap.Path

variable {t t' : FileTree} {place next target up : Location} {segment name path : Text}
  {segments : List Text}

theorem isDirectory_iff : t.isDirectory place ↔ t.get? place = some .directory := by
  unfold isDirectory
  split
  · simp_all
  · simp_all

theorem isDirectory_eq_false_of_file {content : ByteArray}
    (h : t.get? place = some (.file content)) : t.isDirectory place = false := by
  simp [isDirectory, h]

theorem ne_of_isDirectory {other : Location} (h : t.isDirectory place)
    (hother : t.isDirectory other = false) : place ≠ other := by
  rintro rfl
  rw [h] at hother
  cases hother

theorem get?_note_put {entry : Entry} {change : Change} (hplace : place ≠ []) (q : Location) :
    ((t.put place entry).note change).get? q = if q = place then some entry else t.get? q := by
  rw [get?_note, get?_put _ _ _ _ hplace]

/-! ## One step and many -/

/-- A step is taken from a directory and stays there, goes up or goes down. -/
theorem step_eq_ok_iff : t.step place segment = .ok next ↔ t.isDirectory place ∧
    (isIdle segment ∧ next = place ∨ segment = dotDot ∧ next = place.tail ∨
      isIdle segment = false ∧ segment ≠ dotDot ∧ (t.get? (segment :: place)).isSome ∧
        next = segment :: place) := by
  have hidle : isIdle dotDot = false := isIdle_dotDot
  unfold step
  split_ifs with hdir hstay hup hdown
  all_goals grind

theorem walk_cons_eq_ok_iff : t.walk place (segment :: segments) = .ok target ↔
    ∃ next, t.step place segment = .ok next ∧ t.walk next segments = .ok target := by
  rw [walk, List.foldlM_cons]
  exact Traversal.bind_eq_ok_iff

theorem walk_append_eq_ok_iff {others : List Text} :
    t.walk place (segments ++ others) = .ok target ↔
      ∃ next, t.walk place segments = .ok next ∧ t.walk next others = .ok target := by
  rw [walk, List.foldlM_append]
  exact Traversal.bind_eq_ok_iff

theorem walk_concat_eq_ok_iff : t.walk place (segments ++ [segment]) = .ok target ↔
    ∃ next, t.walk place segments = .ok next ∧ t.step next segment = .ok target := by
  rw [walk_append_eq_ok_iff]
  simp [walk]

def Enters (t : FileTree) (place : Location) (segments : List Text) (target : Location) : Prop :=
  t.walk place segments = .ok target ∧ t.isDirectory target

theorem enters_nil_iff : t.Enters place [] target ↔ place = target ∧ t.isDirectory target := by
  simp [Enters, walk, pure, Except.pure]

theorem enters_cons_iff : t.Enters place (segment :: segments) target ↔
    ∃ next, t.step place segment = .ok next ∧ t.Enters next segments target := by
  unfold Enters
  rw [walk_cons_eq_ok_iff]
  grind

theorem Enters.isDirectory_start (h : t.Enters place segments target) : t.isDirectory place := by
  cases segments with
  | nil =>
    obtain ⟨rfl, hdir⟩ := enters_nil_iff.1 h
    exact hdir
  | cons segment segments =>
    obtain ⟨next, hstep, -⟩ := enters_cons_iff.1 h
    exact (step_eq_ok_iff.1 hstep).1

/-- Directories are all that a way to a directory needs. -/
theorem Enters.of_isDirectory (hdirs : ∀ {q}, t.isDirectory q → t'.isDirectory q)
    (h : t.Enters place segments target) : t'.Enters place segments target := by
  induction segments generalizing place with
  | nil =>
    obtain ⟨rfl, hdir⟩ := enters_nil_iff.1 h
    exact enters_nil_iff.2 ⟨rfl, hdirs hdir⟩
  | cons segment segments ih =>
    obtain ⟨next, hstep, hrest⟩ := enters_cons_iff.1 h
    refine enters_cons_iff.2 ⟨next, ?_, ih hrest⟩
    have hnext := isDirectory_iff.1 (hdirs hrest.isDirectory_start)
    rw [step_eq_ok_iff] at hstep ⊢
    refine ⟨hdirs hstep.1, ?_⟩
    rcases hstep.2 with hstay | hup | ⟨hidle, hdots, -, hdown⟩
    · exact Or.inl hstay
    · exact Or.inr (Or.inl hup)
    · exact Or.inr (Or.inr ⟨hidle, hdots, hdown ▸ Option.isSome_of_eq_some hnext, hdown⟩)

theorem step_of_isIdle (h : isIdle segment) :
    t.step place segment = .ok next ↔ t.isDirectory place ∧ next = place := by
  rw [step_eq_ok_iff]
  have hup : segment ≠ dotDot := by
    rintro rfl
    cases h
  simp [h, hup]

/-- A segment that is neither idle nor two dots leads to the entry of that name. -/
theorem step_of_isName (hidle : isIdle segment = false) (hdots : segment ≠ dotDot) :
    t.step place segment = .ok next ↔
      t.isDirectory place ∧ (t.get? (segment :: place)).isSome ∧ next = segment :: place := by
  rw [step_eq_ok_iff]
  simp [hidle, hdots]

/-- On the way to a directory idle segments make no difference. -/
theorem enters_filter_iff :
    t.Enters place (segments.filter (!isIdle ·)) target ↔ t.Enters place segments target := by
  induction segments generalizing place with
  | nil => rfl
  | cons segment segments ih =>
    cases hidle : isIdle segment with
    | false =>
      rw [List.filter_cons_of_pos (by simp [hidle]), enters_cons_iff, enters_cons_iff]
      simp only [ih]
    | true =>
      rw [List.filter_cons_of_neg (by simp [hidle]), enters_cons_iff, ih]
      simp only [step_of_isIdle hidle]
      constructor
      · intro h
        exact ⟨place, ⟨h.isDirectory_start, rfl⟩, h⟩
      · rintro ⟨_, ⟨-, rfl⟩, h⟩
        exact h

/-- Idle segments do not leave a directory. -/
theorem walk_of_isIdle (hdir : t.isDirectory place) (h : ∀ segment ∈ segments, isIdle segment) :
    t.walk place segments = .ok place := by
  have hnames : segments.filter (!isIdle ·) = [] := by
    rw [List.filter_eq_nil_iff]
    intro segment hsegment
    simp [h segment hsegment]
  have henters : t.Enters place segments place := by
    rw [← enters_filter_iff, hnames, enters_nil_iff]
    exact ⟨rfl, hdir⟩
  exact henters.1

/-! ## Paths -/

theorem resolve_eq_ok_iff : t.resolve path = .ok target ↔
    path ≠ [] ∧ t.walk (t.start path) (path.splitOn '/') = .ok target := by
  cases path <;> simp [resolve]

theorem pathExists_iff : t.pathExists path ↔ ∃ target, t.resolve path = .ok target := by
  unfold pathExists
  cases t.resolve path <;> simp [Except.isOk, Except.toBool]

/-- A path leads to a directory if its names do. -/
theorem resolve_directory_iff (hpath : path ≠ []) :
    t.resolve path = .ok target ∧ t.isDirectory target ↔
      t.Enters (t.start path) (names path) target := by
  rw [names, enters_filter_iff, resolve_eq_ok_iff, Enters]
  simp [hpath]

/-- What stands behind a path that does not end in a name has to be a directory. -/
theorem isDirectory_of_resolve (h : t.resolve path = .ok target) (hend : ¬EndsInName path) :
    t.isDirectory target := by
  obtain ⟨-, hwalk⟩ := resolve_eq_ok_iff.1 h
  obtain ⟨outer, last, hsplit⟩ :=
    (List.eq_nil_or_concat' (path.splitOn '/')).resolve_left (List.splitOn_ne_nil _ _)
  rw [hsplit] at hwalk
  have hidle : isIdle last = true := by simpa [EndsInName, hsplit] using hend
  obtain ⟨next, -, hstep⟩ := walk_concat_eq_ok_iff.1 hwalk
  obtain ⟨hdir, rfl⟩ := (step_of_isIdle hidle).1 hstep
  exact hdir

/-- The file that a write through the path makes or replaces: it has the name that the path ends in,
in the directory of the path. -/
def Targets (t : FileTree) (path : Text) (place : Location) : Prop :=
  ∃ name up, fileName? path = some name ∧
    (t.resolve (directory path) = .ok up ∧ t.isDirectory up) ∧ place = name :: up

theorem resolve_directory_of_fileName? (hname : fileName? path = some name) :
    t.resolve (directory path) = .ok up ∧ t.isDirectory up ↔
      t.Enters (t.start path) (names path).dropLast up := by
  have hnames : names path ≠ [] := by
    intro hnil
    simp [fileName?_eq_some_iff, hnil] at hname
  rw [resolve_directory_iff (directory_ne_nil path), names_directory, start, start,
    isAbsolute_directory hnames]

theorem names_eq_of_fileName? (hname : fileName? path = some name) :
    names path = (names path).dropLast ++ [name] := by
  obtain ⟨hlast, -⟩ := fileName?_eq_some_iff.1 hname
  exact (List.dropLast_append_getLast? name hlast).symm

theorem isIdle_of_fileName? (hname : fileName? path = some name) : isIdle name = false := by
  obtain ⟨hlast, -⟩ := fileName?_eq_some_iff.1 hname
  simpa using (List.mem_filter.1 (List.mem_of_getLast? hlast)).2

theorem Targets.unique {other : Location} (h : t.Targets path place)
    (hother : t.Targets path other) : place = other := by
  obtain ⟨name, up, hname, hup, rfl⟩ := h
  obtain ⟨name', up', hname', hup', rfl⟩ := hother
  rw [hname] at hname'
  rw [Option.some.inj hname', Except.ok.inj (hup.1.symm.trans hup'.1)]

/-- Two spellings of the same names target the same file. -/
theorem targets_congr {other : Text} (hnames : names other = names path)
    (hstart : isAbsolute other = isAbsolute path) :
    t.Targets other place ↔ t.Targets path place := by
  have hname (name : Text) : fileName? other = some name ↔ fileName? path = some name := by
    rw [fileName?_eq_some_iff, fileName?_eq_some_iff, hnames]
  constructor
  · rintro ⟨name, up, hother, hup, hplace⟩
    rw [resolve_directory_of_fileName? hother, hnames, start, hstart] at hup
    have hpath := (hname name).1 hother
    exact ⟨name, up, hpath, (resolve_directory_of_fileName? hpath).2 hup, hplace⟩
  · rintro ⟨name, up, hpath, hup, hplace⟩
    rw [resolve_directory_of_fileName? hpath, ← hnames, start, ← hstart] at hup
    have hother := (hname name).2 hpath
    exact ⟨name, up, hother, (resolve_directory_of_fileName? hother).2 hup, hplace⟩

/-- A path that ends in a name resolves to its target, if that exists. -/
theorem resolve_of_targets (h : t.Targets path place) (hexists : (t.get? place).isSome)
    (hend : EndsInName path) : t.resolve path = .ok place := by
  obtain ⟨name, up, hname, hup, rfl⟩ := h
  have henters := (resolve_directory_of_fileName? hname).1 hup
  obtain ⟨last, hlast, hidle⟩ := hend
  obtain ⟨outer, hsplit⟩ := List.getLast?_eq_some_iff.1 hlast
  have hnames : names path = outer.filter (!isIdle ·) ++ [last] := by
    simp [names, hsplit, hidle]
  obtain ⟨hlast, hdots⟩ := fileName?_eq_some_iff.1 hname
  rw [hnames] at hlast henters
  obtain rfl : last = name := by simpa using hlast
  rw [List.dropLast_concat, enters_filter_iff] at henters
  rw [resolve_eq_ok_iff, hsplit, walk_concat_eq_ok_iff]
  refine ⟨?_, up, henters.1, ?_⟩
  · rintro rfl
    cases hname
  · exact (step_of_isName hidle hdots).2 ⟨henters.2, hexists, rfl⟩

/-- A path that does not end in a name does not resolve if its target is a file. -/
theorem not_resolve_of_targets {content : ByteArray} (h : t.Targets path place)
    (hfile : t.get? place = some (.file content)) (hend : ¬EndsInName path) (target : Location) :
    t.resolve path ≠ .ok target := by
  intro hresolve
  obtain ⟨name, up, hname, hup, rfl⟩ := h
  have hdir := isDirectory_of_resolve hresolve hend
  have hpath : path ≠ [] := (resolve_eq_ok_iff.1 hresolve).1
  have hwalk := ((resolve_directory_iff hpath).1 ⟨hresolve, hdir⟩).1
  rw [names_eq_of_fileName? hname, walk_concat_eq_ok_iff] at hwalk
  obtain ⟨next, hnext, hstep⟩ := hwalk
  have henters := ((resolve_directory_of_fileName? hname).1 hup).1
  obtain rfl : next = up := Except.ok.inj (hnext.symm.trans henters)
  obtain ⟨-, hdots⟩ := fileName?_eq_some_iff.1 hname
  obtain ⟨-, -, rfl⟩ := (step_of_isName (isIdle_of_fileName? hname) hdots).1 hstep
  rw [isDirectory_eq_false_of_file hfile] at hdir
  cases hdir

/-! ## Trees in which nothing goes away -/

/-- What is a directory stays one, and every entry is still there. -/
structure Retains (t t' : FileTree) : Prop where
  isDirectory : ∀ {place}, t.isDirectory place → t'.isDirectory place
  isSome : ∀ {place}, (t.get? place).isSome → (t'.get? place).isSome
  working : t'.working = t.working

theorem Retains.step (h : t.Retains t') (hstep : t.step place segment = .ok next) :
    t'.step place segment = .ok next := by
  rw [step_eq_ok_iff] at hstep ⊢
  refine ⟨h.isDirectory hstep.1, ?_⟩
  rcases hstep.2 with hstay | hup | ⟨hidle, hdots, hexists, hnext⟩
  · exact Or.inl hstay
  · exact Or.inr (Or.inl hup)
  · exact Or.inr (Or.inr ⟨hidle, hdots, h.isSome hexists, hnext⟩)

theorem Retains.walk (h : t.Retains t') (hwalk : t.walk place segments = .ok target) :
    t'.walk place segments = .ok target := by
  induction segments generalizing place with
  | nil => exact hwalk
  | cons segment segments ih =>
    obtain ⟨next, hstep, hrest⟩ := walk_cons_eq_ok_iff.1 hwalk
    exact walk_cons_eq_ok_iff.2 ⟨next, h.step hstep, ih hrest⟩

theorem Retains.start (h : t.Retains t') (path : Text) : t'.start path = t.start path := by
  rw [FileTree.start, FileTree.start, h.working]

theorem Retains.resolve (h : t.Retains t') (hresolve : t.resolve path = .ok target) :
    t'.resolve path = .ok target := by
  rw [resolve_eq_ok_iff] at hresolve ⊢
  rw [h.start]
  exact ⟨hresolve.1, h.walk hresolve.2⟩

theorem Retains.targets (h : t.Retains t') (htarget : t.Targets path place) :
    t'.Targets path place := by
  obtain ⟨name, up, hname, ⟨hresolve, hdir⟩, hplace⟩ := htarget
  exact ⟨name, up, hname, ⟨h.resolve hresolve, h.isDirectory hdir⟩, hplace⟩

/-- A file in a place that holds no directory takes nothing away. -/
theorem retains_put_file {bytes : ByteArray} {change : Change} (hplace : place ≠ [])
    (hdir : t.isDirectory place = false) :
    t.Retains ((t.put place (.file bytes)).note change) := by
  refine ⟨?_, ?_, rfl⟩
  · intro q hq
    rw [isDirectory_iff, get?_note_put hplace, if_neg (ne_of_isDirectory hq hdir)]
    exact isDirectory_iff.1 hq
  · intro q hq
    rw [get?_note_put hplace]
    split_ifs
    · rfl
    · exact hq

structure GrowsTo (t t' : FileTree) : Prop where
  get? : ∀ {place entry}, t.get? place = some entry → t'.get? place = some entry
  working : t'.working = t.working

theorem GrowsTo.isDirectory (h : t.GrowsTo t') (hdir : t.isDirectory place) :
    t'.isDirectory place :=
  isDirectory_iff.2 (h.get? (isDirectory_iff.1 hdir))

theorem GrowsTo.retains (h : t.GrowsTo t') : t.Retains t' := by
  refine ⟨h.isDirectory, ?_, h.working⟩
  intro place hplace
  obtain ⟨entry, hentry⟩ := Option.isSome_iff_exists.1 hplace
  exact Option.isSome_of_eq_some (h.get? hentry)

/-! ## Straight down -/

/-- Every entry lies in a directory. -/
def IsRooted (t : FileTree) : Prop :=
  ∀ name up entry, t.get? (name :: up) = some entry → t.isDirectory up

/-- Without two dots the place at the end of a walk shows the way that was taken. -/
theorem target_eq_of_walk (hidle : ∀ segment ∈ segments, isIdle segment = false)
    (hdots : dotDot ∉ segments) (h : t.walk place segments = .ok target) :
    target = segments.reverse ++ place := by
  induction segments generalizing place with
  | nil => exact (Except.ok.inj h).symm
  | cons segment segments ih =>
    obtain ⟨hsegment, hothers⟩ := List.forall_mem_cons.1 hidle
    rw [List.mem_cons, not_or] at hdots
    obtain ⟨next, hstep, hrest⟩ := walk_cons_eq_ok_iff.1 h
    obtain ⟨-, -, rfl⟩ := (step_of_isName hsegment (Ne.symm hdots.1)).1 hstep
    rw [ih hothers hdots.2 hrest, List.reverse_cons, List.append_assoc, List.singleton_append]

/-- The way straight down to a directory can be walked. -/
theorem IsRooted.enters (hroot : t.IsRooted) (hidle : ∀ segment ∈ segments, isIdle segment = false)
    (hdots : dotDot ∉ segments) (hdir : t.isDirectory (segments.reverse ++ place)) :
    t.Enters place segments (segments.reverse ++ place) := by
  induction segments generalizing place with
  | nil => exact enters_nil_iff.2 ⟨rfl, hdir⟩
  | cons segment segments ih =>
    obtain ⟨hsegment, hothers⟩ := List.forall_mem_cons.1 hidle
    rw [List.mem_cons, not_or] at hdots
    rw [List.reverse_cons, List.append_assoc, List.singleton_append] at hdir ⊢
    have hrest := ih hothers hdots.2 hdir
    have hnext := isDirectory_iff.1 hrest.isDirectory_start
    refine enters_cons_iff.2 ⟨segment :: place, ?_, hrest⟩
    apply (step_of_isName hsegment (Ne.symm hdots.1)).2
    exact ⟨hroot segment place _ hnext, Option.isSome_of_eq_some hnext, rfl⟩

/-- An entry that a path targets once the tree has grown is its target from the start, if no missing
directory is left again by two dots on the way. -/
theorem IsRooted.targets_of_growsTo {entry : Entry} (hroot : t.IsRooted) (h : t.GrowsTo t')
    (hpath : dotDot ∉ path.splitOn '/' ∨ t.pathExists (directory path))
    (htarget : t'.Targets path place) (hplace : t.get? place = some entry) :
    t.Targets path place := by
  obtain ⟨name, up, hname, hup, rfl⟩ := htarget
  have hdir := hroot name up entry hplace
  refine ⟨name, up, hname, ?_, rfl⟩
  rcases hpath with hdots | hexists
  · rw [resolve_directory_of_fileName? hname, h.retains.start] at hup
    rw [resolve_directory_of_fileName? hname]
    have hidle : ∀ segment ∈ (names path).dropLast, isIdle segment = false := by
      intro segment hsegment
      simpa using (List.mem_filter.1 (List.dropLast_subset _ hsegment)).2
    have hnames : dotDot ∉ (names path).dropLast := fun hmem =>
      hdots (dotDot_mem_names_iff.1 (List.dropLast_subset _ hmem))
    rw [target_eq_of_walk hidle hnames hup.1] at hdir ⊢
    exact hroot.enters hidle hnames hdir
  · obtain ⟨first, hfirst⟩ := pathExists_iff.1 hexists
    obtain rfl : first = up := Except.ok.inj ((h.retains.resolve hfirst).symm.trans hup.1)
    exact ⟨hfirst, hdir⟩

end Keymap.FileTree

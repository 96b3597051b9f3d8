import Keymap.Proofs.Files.Writing
import Keymap.Proofs.Watch.Questions

/-! # What a watch notices

The system tells a watch of what happens in the watched directory, each place under a path in that
directory. A watch takes notice of what is created, modified or moved there under the name of its
file, and not of what is removed. Main statement: of edits, which write a file, move a temporary
file onto it or remove it, a watch notices exactly those that save the watched file, by whatever
path.
-/
namespace Keymap

namespace Path

variable {path name : Text}

/-- The name that a path ends in is a name behind every other path as well. -/
theorem fileName?_append_slash (h : fileName? path = some name) (root : Text) :
    fileName? (root ++ '/' :: name) = some name := by
  obtain ⟨hlast, hdots⟩ := fileName?_eq_some_iff.1 h
  obtain ⟨hsegment, hidle⟩ := List.mem_filter.1 (List.mem_of_getLast? hlast)
  have hsplit : name.splitOn '/' = [name] :=
    List.splitOn_eq_singleton (Text.not_mem_of_mem_splitOn hsegment)
  have hnames : names (root ++ '/' :: name) = names root ++ [name] := by
    rw [names, List.splitOn_append_cons_self, hsplit, List.filter_append, names]
    simpa using hidle
  rw [fileName?_eq_some_iff, hnames, List.getLast?_concat]
  exact ⟨rfl, hdots⟩

end Path

namespace Watch

open Keymap.Path

variable {w : Watch} {t t' : FileTree} {place up : Location} {path : Text} {change : Change}
  {kind : Notification.Kind} {bytes : ByteArray}

/-! ## One change -/

/-- The path under which the system tells of a place: that of the watched directory, or that of
something in it. -/
def told? (w : Watch) (place : Location) : Option Text :=
  if w.place? = some place then some w.root
  else
    match place with
    | [] => none
    | name :: up => if w.place? = some up then some (w.root ++ '/' :: name) else none

theorem deliverAt_eq (w : Watch) (kind : Notification.Kind) (place : Location) :
    w.deliverAt kind place =
      match w.told? place with
      | some p => w.deliver (.event kind [p])
      | none => w := by
  unfold deliverAt told?
  split_ifs
  · rfl
  · cases place with
    | nil => rfl
    | cons name up =>
      dsimp only
      split_ifs <;> rfl

def Concerns (w : Watch) (place : Location) : Prop :=
  ∃ p ∈ w.told? place, fileName? p = fileName? w.path

theorem deliverAt_fields (w : Watch) (kind : Notification.Kind) (place : Location) :
    (w.deliverAt kind place).path = w.path ∧ (w.deliverAt kind place).root = w.root ∧
      (w.deliverAt kind place).place? = w.place? := by
  rw [deliverAt_eq]
  cases w.told? place <;> exact ⟨rfl, rfl, rfl⟩

theorem concerns_deliverAt_iff {other : Location} :
    (w.deliverAt kind other).Concerns place ↔ w.Concerns place := by
  obtain ⟨hpath, hroot, hplace⟩ := w.deliverAt_fields kind other
  unfold Concerns told?
  rw [hpath, hroot, hplace]

theorem changed_deliver_iff {n : Notification} :
    (w.deliver n).changed.1 ↔ w.changed.1 ∨ Announces w.path n := by
  have hqueue : (w.deliver n).changed.1 = (w.changed.1 || w.isRelevant n) := by
    rw [changed, queue_deliver, List.any_append, List.any_cons, List.any_nil, Bool.or_false]
    rfl
  rw [hqueue, Bool.or_eq_true, isRelevant_iff]

theorem changed_deliverAt_iff : (w.deliverAt kind place).changed.1 ↔
    w.changed.1 ∨ (kind = .create ∨ kind = .modify) ∧ w.Concerns place := by
  rw [deliverAt_eq, Concerns]
  cases w.told? place with
  | none => simp
  | some p =>
    have hannounces : Announces w.path (.event kind [p]) ↔
        (kind = .create ∨ kind = .modify) ∧ fileName? p = fileName? w.path := by
      constructor
      · rintro ⟨hkind, hp, hname⟩
        exact ⟨hkind, List.mem_singleton.1 hp ▸ hname⟩
      · rintro ⟨hkind, hname⟩
        exact .event hkind (List.mem_singleton_self p) hname
    simp [changed_deliver_iff, hannounces]

/-- The watch finds a change of its file in this change. Something that is removed counts only if it
is the watched directory, which is modified by its own removal. -/
def Notices (w : Watch) : Change → Prop
  | .created place | .written place | .moved none place => w.Concerns place
  | .removed place => w.place? = some place ∧ w.Concerns place
  | .moved (some old) place => w.Concerns old ∨ w.Concerns place

theorem changed_observe_iff :
    (w.observe change).changed.1 ↔ w.changed.1 ∨ w.Notices change := by
  cases change with
  | created place => simp [observe, changed_deliverAt_iff, Notices]
  | written place => simp [observe, changed_deliverAt_iff, Notices]
  | removed place =>
    rw [observe, Notices]
    split_ifs with hplace
    · have hsame : { w.deliverAt .modify place with place? := none }.changed.1 =
          (w.deliverAt .modify place).changed.1 := rfl
      simp [hsame, changed_deliverAt_iff, hplace]
    · simp [changed_deliverAt_iff, hplace]
  | moved old? place =>
    cases old? with
    | none => simp [observe, changed_deliverAt_iff, Notices]
    | some old =>
      have hsame (moved? : Option Location) :
          { (w.deliverAt .modify old).deliverAt .modify place with place? := moved? }.changed.1 =
            ((w.deliverAt .modify old).deliverAt .modify place).changed.1 := rfl
      simp [observe, hsame, changed_deliverAt_iff, concerns_deliverAt_iff, Notices, or_assoc]

/-! ## Many changes -/

theorem exists_split_cons {α : Type} {P : List α → α → Prop} {first : α} {rest : List α} :
    (∃ earlier a later, first :: rest = earlier ++ a :: later ∧ P earlier a) ↔
      P [] first ∨ ∃ earlier a later, rest = earlier ++ a :: later ∧ P (first :: earlier) a := by
  constructor
  · rintro ⟨earlier, a, later, hsplit, ha⟩
    cases earlier with
    | nil =>
      obtain ⟨rfl, -⟩ := List.cons.inj hsplit
      exact Or.inl ha
    | cons second earlier =>
      obtain ⟨rfl, rfl⟩ := List.cons.inj hsplit
      exact Or.inr ⟨earlier, a, later, rfl, ha⟩
  · rintro (hfirst | ⟨earlier, a, later, rfl, ha⟩)
    · exact ⟨[], first, rest, rfl, hfirst⟩
    · exact ⟨first :: earlier, a, later, rfl, ha⟩

/-- A watch that follows changes finds one of its file if and only if it notices one of them when it
comes to it. -/
theorem changed_foldl_observe_iff (changes : List Change) :
    (changes.foldl observe w).changed.1 ↔ w.changed.1 ∨
      ∃ earlier change later, changes = earlier ++ change :: later ∧
        (earlier.foldl observe w).Notices change := by
  induction changes generalizing w with
  | nil => simp
  | cons first changes ih =>
    rw [List.foldl_cons, ih, changed_observe_iff, or_assoc, exists_split_cons]
    rfl

theorem follow_self (w : Watch) (t : FileTree) : w.follow t t = w := by simp [follow]

theorem follow_note (h : t'.changes = t.changes) :
    w.follow t (t'.note change) = w.observe change := by
  simp [follow, FileTree.note, h]

/-- What happens can be followed in several goes. -/
theorem follow_follow {t'' : FileTree} (h : t.changes <+: t'.changes)
    (h' : t'.changes <+: t''.changes) : (w.follow t t').follow t' t'' = w.follow t t'' := by
  obtain ⟨first, hfirst⟩ := h
  obtain ⟨second, hsecond⟩ := h'
  simp [follow, ← hsecond, ← hfirst, List.foldl_append]

/-! ## Edits of files -/

/-- The watched directory is the one that the watched file is in. -/
def Attends (w : Watch) (t : FileTree) : Prop :=
  ∃ up, w.place? = some up ∧ t.resolve (directory w.path) = .ok up ∧ t.isDirectory up

theorem attends_of_start (h : (start t path).value = .ok w)
    (hdir : t.isDirectoryPath (directory path)) : w.Attends t := by
  rw [start] at h
  rw [FileTree.isDirectoryPath] at hdir
  cases hplace : t.resolve (directory path) with
  | error cause =>
    rw [hplace] at h
    cases h
  | ok up =>
    rw [hplace] at h hdir
    cases h
    exact ⟨up, rfl, hplace, hdir⟩

theorem Attends.concerns_iff (h : w.Attends t) (htarget : t.Targets path place)
    (hfile : t.isDirectory place = false) : w.Concerns place ↔ t.Targets w.path place := by
  obtain ⟨watched, hplace, hwatched⟩ := h
  obtain ⟨name, up, hname, -, rfl⟩ := htarget
  have hne : watched ≠ name :: up := FileTree.ne_of_isDirectory hwatched.2 hfile
  have htold : w.told? (name :: up) =
      if watched = up then some (w.root ++ '/' :: name) else none := by
    simp [told?, hplace, hne]
  rw [Concerns, htold]
  constructor
  · rintro ⟨p, hp, hsame⟩
    split_ifs at hp with hup
    · obtain rfl := hup
      rw [← Option.some.inj hp, fileName?_append_slash hname] at hsame
      exact ⟨name, watched, hsame.symm, hwatched, rfl⟩
    · cases hp
  · rintro ⟨other, above, hother, habove, heq⟩
    obtain ⟨rfl, rfl⟩ := List.cons.inj heq
    obtain rfl : watched = up := Except.ok.inj (hwatched.1.symm.trans habove.1)
    exact ⟨_, by rw [if_pos rfl]; rfl, by rw [fileName?_append_slash hname, hother]⟩

/-- The watch still attends to a tree in which all directories are where they were. -/
theorem Attends.of_retained {w' : Watch} (h : w.Attends t)
    (hdirs : ∀ {q}, t.isDirectory q → t'.isDirectory q) (hworking : t'.working = t.working)
    (hpath : w'.path = w.path) (hplace : w'.place? = w.place?) : w'.Attends t' := by
  obtain ⟨up, hup, hresolve⟩ := h
  have henters := (FileTree.resolve_directory_iff (directory_ne_nil w.path)).1 hresolve
  refine ⟨up, hplace.trans hup, ?_⟩
  rw [hpath, FileTree.resolve_directory_iff (directory_ne_nil w.path)]
  rw [FileTree.start, hworking]
  exact henters.of_isDirectory hdirs

end Watch

namespace FileTree

def SameFile (t : FileTree) (path other : Text) : Prop :=
  ∃ place, t.Targets path place ∧ t.Targets other place

inductive Edit where
  | write (path : Text) (bytes : ByteArray)
  | replace (path : Text) (bytes : ByteArray)
  | remove (path : Text)

/-- The tree after an edit, which is the same tree if the edit fails. -/
def edit (t : FileTree) : Edit → FileTree
  | .write path bytes => (t.writeFile path bytes).toOption.getD t
  | .replace path bytes => (t.replaceFile path bytes).2
  | .remove path => (t.removeFile path).toOption.getD t

def edited (t : FileTree) (edits : List Edit) : FileTree := edits.foldl edit t

/-- The edit succeeds and gives the file of the path its content. -/
def Saves (t : FileTree) (path : Text) : Edit → Prop
  | .write other bytes => (∃ t', t.writeFile other bytes = .ok t') ∧ t.SameFile other path
  | .replace other bytes => (∃ t', t.replaceFile other bytes = (.ok (), t')) ∧ t.SameFile other path
  | .remove _ => False

end FileTree

namespace Watch

open Keymap.Path

variable {w : Watch} {t t' t'' : FileTree} {place : Location} {path other : Text}
  {change : Change} {bytes : ByteArray}

theorem sameFile_iff (h : t.Targets path place) :
    t.SameFile path other ↔ t.Targets other place := by
  constructor
  · rintro ⟨_, hpath, hother⟩
    exact h.unique hpath ▸ hother
  · intro hother
    exact ⟨place, h, hother⟩

/-- The watch attends to both trees, and finds a change of its file if it did before or if the file
has been saved. -/
structure FollowsTo (w : Watch) (t t' : FileTree) (saved : Prop) : Prop where
  attends : (w.follow t t').Attends t'
  path : (w.follow t t').path = w.path
  changed : (w.follow t t').changed.1 ↔ w.changed.1 ∨ saved
  changes : t.changes <+: t'.changes

theorem Attends.followsTo_self (h : w.Attends t) {saved : Prop} (hsaved : ¬ saved) :
    w.FollowsTo t t saved := by
  refine ⟨?_, ?_, ?_, List.prefix_rfl⟩
  · rwa [follow_self]
  · rw [follow_self]
  · rw [follow_self, or_iff_left hsaved]

theorem FollowsTo.trans {saved saved' : Prop} (h : w.FollowsTo t t' saved)
    (h' : (w.follow t t').FollowsTo t' t'' saved') : w.FollowsTo t t'' (saved ∨ saved') := by
  have hfollow : (w.follow t t').follow t' t'' = w.follow t t'' :=
    follow_follow h.changes h'.changes
  refine ⟨?_, ?_, ?_, h.changes.trans h'.changes⟩
  · rw [← hfollow]
    exact h'.attends
  · rw [← hfollow, h'.path, h.path]
  · rw [← hfollow, h'.changed, h.changed, or_assoc]

/-- A file that is put somewhere is noticed in the place of the watched file and nowhere else. -/
theorem Attends.put_file (h : w.Attends t) (bytes : ByteArray) (htarget : t.Targets path place)
    (hfile : t.isDirectory place = false)
    (hchange : change = .created place ∨ change = .written place ∨ change = .moved none place) :
    w.FollowsTo t ((t.put place (.file bytes)).note change) (t.SameFile path w.path) := by
  obtain ⟨kind, hkind, hobserve⟩ : ∃ kind : Notification.Kind,
      (kind = .create ∨ kind = .modify) ∧ w.observe change = w.deliverAt kind place := by
    rcases hchange with rfl | rfl | rfl
    · exact ⟨.create, Or.inl rfl, rfl⟩
    · exact ⟨.modify, Or.inr rfl, rfl⟩
    · exact ⟨.modify, Or.inr rfl, rfl⟩
  have hfollow : w.follow t ((t.put place (.file bytes)).note change) = w.deliverAt kind place :=
    (follow_note (by rfl)).trans hobserve
  obtain ⟨hpath, -, hplace⟩ := w.deliverAt_fields kind place
  have hretains : t.Retains ((t.put place (.file bytes)).note change) :=
    FileTree.retains_put_file htarget.ne_nil hfile
  refine ⟨?_, ?_, ?_, List.prefix_append _ _⟩
  · rw [hfollow]
    exact h.of_retained hretains.isDirectory hretains.working hpath hplace
  · rw [hfollow, hpath]
  · rw [hfollow, changed_deliverAt_iff, h.concerns_iff htarget hfile, sameFile_iff htarget,
      and_iff_right hkind]

/-- A file that is removed is not noticed. -/
theorem Attends.erase (h : w.Attends t) (hfile : t.isDirectory place = false) :
    w.FollowsTo t ((t.erase place).note (.removed place)) False := by
  have hwatched : w.place? ≠ some place := by
    obtain ⟨up, hup, -, hdir⟩ := h
    rw [hup, ne_eq, Option.some_inj]
    exact FileTree.ne_of_isDirectory hdir hfile
  have hfollow : w.follow t ((t.erase place).note (.removed place)) =
      w.deliverAt .remove place :=
    (follow_note (by rfl)).trans (if_neg hwatched)
  obtain ⟨hpath, -, hplace⟩ := w.deliverAt_fields .remove place
  refine ⟨?_, ?_, ?_, List.prefix_append _ _⟩
  · rw [hfollow]
    exact h.of_retained (FileTree.isDirectory_note_erase hfile) rfl hpath hplace
  · rw [hfollow, hpath]
  · simp [hfollow, changed_deliverAt_iff]

/-- The watch notices an edit if that saves its file. -/
theorem Attends.edit (h : w.Attends t) (e : FileTree.Edit) :
    w.FollowsTo t (t.edit e) (t.Saves w.path e) := by
  cases e with
  | write other bytes =>
    rw [FileTree.edit, FileTree.Saves]
    cases hwrite : t.writeFile other bytes with
    | error cause => exact h.followsTo_self (by simp)
    | ok t' =>
      obtain ⟨place, htarget, -, hfile, rfl⟩ := FileTree.writeFile_eq_ok_iff.1 hwrite
      split_ifs
      · simpa [Except.toOption] using h.put_file bytes htarget hfile (Or.inr (Or.inl rfl))
      · simpa [Except.toOption] using h.put_file bytes htarget hfile (Or.inl rfl)
  | replace other bytes =>
    rw [FileTree.edit, FileTree.Saves]
    cases hreplace : t.replaceFile other bytes with
    | mk result t' =>
      cases result with
      | error cause =>
        obtain rfl := FileTree.replaceFile_of_error hreplace
        exact h.followsTo_self (by simp)
      | ok =>
        obtain ⟨place, htarget, hfile, rfl⟩ := FileTree.replaceFile_eq_ok_iff.1 hreplace
        simpa using h.put_file bytes htarget hfile (Or.inr (Or.inr rfl))
  | remove other =>
    rw [FileTree.edit, FileTree.Saves]
    cases hremove : t.removeFile other with
    | error cause => exact h.followsTo_self not_false
    | ok t' =>
      obtain ⟨place, -, hfile, rfl⟩ := FileTree.removeFile_eq_ok_iff.1 hremove
      exact h.erase hfile

theorem Attends.edited (h : w.Attends t) (edits : List FileTree.Edit) :
    w.FollowsTo t (t.edited edits) (∃ earlier e later, edits = earlier ++ e :: later ∧
      (t.edited earlier).Saves w.path e) := by
  induction edits generalizing w t with
  | nil => exact h.followsTo_self (by simp)
  | cons e edits ih =>
    have hfirst := h.edit e
    have hrest := ih hfirst.attends
    rw [hfirst.path] at hrest
    rw [exists_split_cons]
    exact hfirst.trans hrest

/-- From its start in a directory that exists, a watch finds a change if and only if an edit since
then has saved the file, whatever path it was saved through. Other files and removals do not count.
-/
theorem changed_iff_saved (hstart : (start t path).value = .ok w)
    (hdir : t.isDirectoryPath (directory path)) (edits : List FileTree.Edit) :
    (w.follow t (t.edited edits)).changed.1 ↔ ∃ earlier e later,
      edits = earlier ++ e :: later ∧ (t.edited earlier).Saves path e := by
  obtain ⟨hpath, hqueue⟩ := path_and_queue_of_start hstart
  have hnone : w.changed.1 = false := by rw [changed, hqueue, List.any_nil]
  rw [((attends_of_start hstart hdir).edited edits).changed, hnone, hpath]
  simp

/-- What is saved beside the file is not found, and the file itself is by any path. -/
example :
    let saved := FileTree.edited {} [.write "keys.bak".toList .empty, .remove "keys.bak".toList]
    (fresh.follow {} saved).changed.1 = false ∧
      (fresh.follow {} (saved.edit (.replace ".//keys.conf".toList .empty))).changed.1 = true :=
  ⟨rfl, rfl⟩

end Watch

end Keymap

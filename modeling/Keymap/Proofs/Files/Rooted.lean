import Keymap.Proofs.Files.Writing

/-! # Trees in which every entry lies in a directory

Trees start out empty and change by operations on paths. An operation can fail halfway, and what it
has done until then stays. Main statement: in all trees that come about like this every entry lies
in a directory, so that an entry can be reached by the directories above it.
-/
namespace Keymap.FileTree

open Keymap.Path

variable {t t' : FileTree} {place up source q : Location} {name path : Text} {entry : Entry}

/-! ## Entries above an entry -/

theorem IsRooted.isDirectory (h : t.IsRooted) (hplace : (t.get? (name :: up)).isSome) :
    t.isDirectory up := by
  obtain ⟨entry, hentry⟩ := Option.isSome_iff_exists.1 hplace
  exact h name up entry hentry

/-- What an entry lies in is there too, however far above. -/
theorem IsRooted.isSome_of_append (h : t.IsRooted) {below : Location}
    (hplace : (t.get? (below ++ up)).isSome) : (t.get? up).isSome := by
  induction below with
  | nil => exact hplace
  | cons name below ih =>
    exact ih (Option.isSome_of_eq_some (isDirectory_iff.1 (h.isDirectory hplace)))

/-- Nothing is there below a place that has nothing in it. -/
theorem IsRooted.get?_append_eq_none (h : t.IsRooted)
    (hnone : ∀ name, t.get? (name :: place) = none) {below : Location} (hbelow : below ≠ []) :
    t.get? (below ++ place) = none := by
  obtain ⟨inner, name, rfl⟩ := (List.eq_nil_or_concat' below).resolve_left hbelow
  rw [← Option.not_isSome_iff_eq_none, List.append_assoc, List.singleton_append]
  intro hsome
  have hname := h.isSome_of_append hsome
  rw [hnone name] at hname
  cases hname

theorem isSome_get?_of_mem {e : Location × Entry} (h : e ∈ t.entries) : (t.get? e.1).isSome := by
  cases hplace : e.1 with
  | nil => rfl
  | cons name up =>
    rw [get?, List.lookup_isSome_iff]
    exact ⟨e, h, by simp [hplace]⟩

/-! ## New entries and removed ones -/

/-- A new entry in a directory may take the place of another one, which has nothing in it unless it
is a directory and stays one. -/
theorem IsRooted.put (h : t.IsRooted) (hup : t.isDirectory up)
    (hentry : t.isDirectory (name :: up) → entry = .directory) :
    (t.put (name :: up) entry).IsRooted := by
  have hget (q : Location) := get?_put t (name :: up) q entry (List.cons_ne_nil name up)
  have hkept {q : Location} (hq : t.isDirectory q) :
      (t.put (name :: up) entry).isDirectory q := by
    rw [isDirectory_iff, hget]
    split_ifs with hplace
    · rw [hentry (hplace ▸ hq)]
    · exact isDirectory_iff.1 hq
  intro other above found hfound
  rw [hget] at hfound
  split_ifs at hfound with hplace
  · obtain ⟨-, rfl⟩ := List.cons.inj hplace
    exact hkept hup
  · exact hkept (h other above found hfound)

theorem IsRooted.put_file {bytes : ByteArray} (h : t.IsRooted) (hup : t.isDirectory up)
    (hdir : t.isDirectory (name :: up) = false) : (t.put (name :: up) (.file bytes)).IsRooted :=
  h.put hup fun hplace => absurd rfl (ne_of_isDirectory hplace hdir)

theorem IsRooted.note (h : t.IsRooted) (change : Change) : (t.note change).IsRooted := by
  intro name up entry hentry
  rw [get?_note] at hentry
  rw [isDirectory_iff, get?_note]
  exact isDirectory_iff.1 (h name up entry hentry)

theorem IsRooted.erase (h : t.IsRooted) (hplace : place ≠ [])
    (hnone : ∀ name, t.get? (name :: place) = none) : (t.erase place).IsRooted := by
  intro name up entry hentry
  rw [get?_erase hplace] at hentry
  split_ifs at hentry with hq
  have hne : up ≠ place := by
    rintro rfl
    rw [hnone name] at hentry
    cases hentry
  rw [isDirectory_iff, get?_erase hplace, if_neg hne]
  exact isDirectory_iff.1 (h name up entry hentry)

/-! ## Entries that are moved -/

theorem lookup_map_of_iff {entries : List (Location × Entry)} {f : Location → Location}
    {k q : Location} (h : ∀ e ∈ entries, f e.1 = q ↔ e.1 = k) :
    (entries.map fun e => (f e.1, e.2)).lookup q = entries.lookup k := by
  induction entries with
  | nil => rfl
  | cons e entries ih =>
    obtain ⟨hfirst, hrest⟩ := List.forall_mem_cons.1 h
    have hbeq : (q == f e.1) = (k == e.1) := by
      rw [Bool.eq_iff_iff, beq_iff_eq, beq_iff_eq, eq_comm, hfirst, eq_comm]
    rw [List.map_cons, List.lookup_cons, List.lookup_cons, hbeq, ih hrest]

theorem relocate_append (below : Location) :
    relocate source place (below ++ source) = below ++ place := by
  simp [relocate]

theorem relocate_of_not_suffix (h : ¬ source <:+ q) : relocate source place q = q := by
  simp [relocate, h]

theorem get?_move_of_not_suffix (hplace : ¬ place <:+ q) (hsource : ¬ source <:+ q) :
    (t.move source place).get? q = t.get? q := by
  cases q with
  | nil => rfl
  | cons name up =>
    apply lookup_map_of_iff
    intro e he
    by_cases hmoved : source <:+ e.1
    · obtain ⟨rest, hrest⟩ := hmoved
      rw [← hrest, relocate_append]
      constructor
      · intro heq
        exact absurd ⟨rest, heq⟩ hplace
      · intro heq
        exact absurd ⟨rest, heq⟩ hsource
    · rw [relocate_of_not_suffix hmoved]

/-- An entry that can be moved to a place, which lies in a directory outside the entry and has
nothing in it. -/
structure Movable (t : FileTree) (source place : Location) : Prop where
  isDirectory : ∃ name up, place = name :: up ∧ t.isDirectory up
  outside : ¬ source <:+ place
  free : ∀ below, t.get? (below ++ place) = none

namespace Movable

theorem source_ne_nil (h : t.Movable source place) : source ≠ [] := by
  rintro rfl
  exact h.outside List.nil_suffix

theorem not_mem (h : t.Movable source place) {e : Location × Entry} (he : e ∈ t.entries) :
    ¬ place <:+ e.1 := by
  rintro ⟨below, hbelow⟩
  have hsome := isSome_get?_of_mem he
  rw [← hbelow, h.free below] at hsome
  cases hsome

theorem get?_append (h : t.Movable source place) (below : Location) :
    (t.move source place).get? (below ++ place) = t.get? (below ++ source) := by
  obtain ⟨name, up, hplace, -⟩ := h.isDirectory
  have hlookup (q : Location) (hq : q ≠ []) (t : FileTree) : t.get? q = t.entries.lookup q := by
    cases q with
    | nil => contradiction
    | cons name up => rfl
  rw [hlookup _ (by simp [hplace]), hlookup _ (by simp [h.source_ne_nil])]
  apply lookup_map_of_iff
  intro e he
  by_cases hsource : source <:+ e.1
  · obtain ⟨rest, hrest⟩ := hsource
    rw [← hrest, relocate_append, List.append_cancel_right_eq, List.append_cancel_right_eq]
  · rw [relocate_of_not_suffix hsource]
    constructor
    · intro heq
      exact absurd ⟨below, heq.symm⟩ (h.not_mem he)
    · intro heq
      exact absurd ⟨below, heq.symm⟩ hsource

theorem get?_source (h : t.Movable source place) (hplace : ¬ place <:+ q) (hsource : source <:+ q) :
    (t.move source place).get? q = none := by
  cases q with
  | nil => exact absurd (List.suffix_nil.1 hsource) h.source_ne_nil
  | cons name up =>
    rw [get?, List.lookup_eq_none_iff]
    intro e he
    obtain ⟨old, hold, rfl⟩ := List.mem_map.1 he
    rw [bne_iff_ne]
    intro heq
    by_cases hmoved : source <:+ old.1
    · obtain ⟨rest, hrest⟩ := hmoved
      rw [← hrest, relocate_append] at heq
      exact hplace ⟨rest, heq.symm⟩
    · rw [relocate_of_not_suffix hmoved] at heq
      exact hmoved (heq ▸ hsource)

end Movable

theorem IsRooted.move (h : t.IsRooted) (hmove : t.Movable source place) :
    (t.move source place).IsRooted := by
  intro name up entry hentry
  have hlonger {s : Location} (hs : s <:+ up) : s <:+ name :: up :=
    hs.trans (List.suffix_cons name up)
  rw [isDirectory_iff]
  by_cases hplace : place <:+ name :: up
  · rcases List.suffix_cons_iff.1 hplace with rfl | ⟨below, rfl⟩
    · obtain ⟨_, _, heq, hup⟩ := hmove.isDirectory
      obtain ⟨-, rfl⟩ := List.cons.inj heq
      have hshorter : ¬ name :: up <:+ up := fun hs => Nat.not_succ_le_self _ hs.length_le
      rw [get?_move_of_not_suffix hshorter fun hs => hmove.outside (hlonger hs)]
      exact isDirectory_iff.1 hup
    · rw [← List.cons_append, hmove.get?_append] at hentry
      rw [hmove.get?_append]
      exact isDirectory_iff.1 (h name (below ++ source) entry hentry)
  · by_cases hsource : source <:+ name :: up
    · rw [hmove.get?_source hplace hsource] at hentry
      cases hentry
    · rw [get?_move_of_not_suffix hplace hsource] at hentry
      rw [get?_move_of_not_suffix (mt hlonger hplace) (mt hlonger hsource)]
      exact isDirectory_iff.1 (h name up entry hentry)

/-! ## Giving an entry a new path -/

theorem get?_cons_of_isEmptyDirectory (h : t.isEmptyDirectory place) (name : Text) :
    t.get? (name :: place) = none := by
  rw [get?, List.lookup_eq_none_iff]
  intro e he
  have htail := List.all_eq_true.1 h e he
  rw [bne_iff_ne] at htail ⊢
  intro heq
  exact htail (by rw [← heq, List.tail_cons])

/-- A new path names the entry already, or a place outside the entry that is free or is cleared
first. -/
theorem cases_rename {target : Text} (h : t.rename path target = .ok t') : t' = t ∨
    ∃ source up name, t.isDirectory up ∧ ¬ source <:+ name :: up ∧
      (t.get? (name :: up) = none ∧
          t' = (t.move source (name :: up)).note (.moved (some source) (name :: up)) ∨
        t.isEmptyDirectory (name :: up) ∧
          t' = ((((t.erase (name :: up)).note (.removed (name :: up))).move source
            (name :: up)).note (.moved (some source) (name :: up)))) := by
  obtain ⟨source, -, h⟩ := Traversal.bind_eq_ok_iff.1 h
  obtain ⟨⟨up, name⟩, hsite, h⟩ := Traversal.bind_eq_ok_iff.1 h
  have hup := isDirectory_of_site hsite
  dsimp only at h
  split at h
  · exact Or.inl (Except.ok.inj h).symm
  · split at h
    · cases h
    next hwrong =>
      have houtside : ¬ source <:+ name :: up := fun hsuffix =>
        hwrong (Or.inl (List.isSuffixOf_iff_suffix.2 hsuffix))
      refine Or.inr ⟨source, up, name, hup, houtside, ?_⟩
      split at h
      case h_1 hfree => exact Or.inl ⟨hfree, (Except.ok.inj h).symm⟩
      case h_2 => cases h
      case h_3 => cases h
      case h_4 =>
        split_ifs at h with hempty
        exact Or.inr ⟨hempty, (Except.ok.inj h).symm⟩

theorem IsRooted.rename {target : Text} (h : t.IsRooted) (hrename : t.rename path target = .ok t') :
    t'.IsRooted := by
  rcases cases_rename hrename with
    rfl | ⟨source, up, name, hup, houtside, ⟨hfree, rfl⟩ | ⟨hempty, rfl⟩⟩
  · exact h
  · refine (h.move ⟨⟨name, up, rfl, hup⟩, houtside, ?_⟩).note _
    intro below
    rw [← Option.not_isSome_iff_eq_none]
    intro hsome
    have hplace := h.isSome_of_append hsome
    rw [hfree] at hplace
    cases hplace
  · have hnone := get?_cons_of_isEmptyDirectory hempty
    have hcleared := (h.erase (List.cons_ne_nil name up) hnone).note (.removed (name :: up))
    refine (hcleared.move ⟨⟨name, up, rfl, ?_⟩, houtside, ?_⟩).note _
    · rw [isDirectory_iff, get?_note_erase (List.cons_ne_nil name up),
        if_neg (List.cons_ne_self name up).symm]
      exact isDirectory_iff.1 hup
    · intro below
      rw [get?_note_erase (List.cons_ne_nil name up)]
      split_ifs with hbelow
      · rfl
      · exact h.get?_append_eq_none hnone fun hnil => hbelow (by rw [hnil, List.nil_append])

/-! ## Operations on paths -/

theorem IsRooted.writeFile {bytes : ByteArray} (h : t.IsRooted)
    (hwrite : t.writeFile path bytes = .ok t') : t'.IsRooted := by
  obtain ⟨_, ⟨name, up, -, hup, rfl⟩, -, hdir, rfl⟩ := writeFile_eq_ok_iff.1 hwrite
  exact (h.put_file hup.2 hdir).note _

/-- Only a directory has anything in it. -/
theorem IsRooted.get?_cons_eq_none (h : t.IsRooted) (hplace : t.isDirectory place = false)
    (name : Text) : t.get? (name :: place) = none := by
  rw [← Option.not_isSome_iff_eq_none]
  intro hname
  rw [h.isDirectory hname] at hplace
  cases hplace

theorem IsRooted.removeFile (h : t.IsRooted) (hremove : t.removeFile path = .ok t') :
    t'.IsRooted := by
  obtain ⟨place, -, hdir, rfl⟩ := removeFile_eq_ok_iff.1 hremove
  exact (h.erase (ne_nil_of_isDirectory_eq_false hdir) (h.get?_cons_eq_none hdir)).note _

theorem IsRooted.makeDirectory (h : t.IsRooted) (hmake : t.makeDirectory path = .ok t') :
    t'.IsRooted := by
  obtain ⟨up, name, hsite, -, -, -, rfl⟩ := makeDirectory_eq_ok_iff.1 hmake
  exact (h.put (isDirectory_of_site hsite) fun _ => rfl).note _

theorem IsRooted.makeDirectories (h : t.IsRooted) (path : Text) :
    (t.makeDirectories path).2.IsRooted :=
  makeDirectoriesUp_induction (fun _ h => h) (fun h h' hroot => h' (h hroot))
    (fun _ hmake hroot => IsRooted.makeDirectory hroot hmake) t h

theorem IsRooted.makeParents (h : t.IsRooted) (path : Text) : (t.makeParents path).2.IsRooted := by
  unfold FileTree.makeParents
  split
  · exact h.makeDirectories _
  · exact h

theorem IsRooted.replaceFile {bytes : ByteArray} (h : t.IsRooted)
    (hreplace : t.replaceFile path bytes = (.ok (), t')) : t'.IsRooted := by
  obtain ⟨_, ⟨name, up, -, hup, rfl⟩, hdir, rfl⟩ := replaceFile_eq_ok_iff.1 hreplace
  exact (h.put_file hup.2 hdir).note _

theorem IsRooted.writeTemplate (h : t.IsRooted) (path : Text) (force : Bool) :
    (t.writeTemplate path force).value.2.IsRooted := by
  have hgrown := h.makeParents path
  rcases cases_writeTemplate t path force with ⟨-, htree | htree⟩ | ⟨-, hreplace⟩
  · rwa [htree]
  · rwa [htree]
  · exact hgrown.replaceFile hreplace

/-! ## Trees that come about -/

theorem isRooted_empty (working : Location) : IsRooted { working } := by
  intro name up entry h
  cases h

inductive Operation where
  | writeFile (path : Text) (bytes : ByteArray)
  | removeFile (path : Text)
  | makeDirectories (path : Text)
  | rename (path target : Text)
  | writeTemplate (path : Text) (force : Bool)

/-- The tree after an operation, whether it succeeds or fails. -/
def apply (t : FileTree) : Operation → FileTree
  | .writeFile path bytes => (t.writeFile path bytes).toOption.getD t
  | .removeFile path => (t.removeFile path).toOption.getD t
  | .makeDirectories path => (t.makeDirectories path).2
  | .rename path target => (t.rename path target).toOption.getD t
  | .writeTemplate path force => (t.writeTemplate path force).value.2

def run (t : FileTree) (operations : List Operation) : FileTree := operations.foldl apply t

/-- An operation that changes nothing if it fails keeps what it keeps if it succeeds. -/
theorem IsRooted.getD {result : Except FileError FileTree} (h : t.IsRooted)
    (hresult : ∀ t', result = .ok t' → t'.IsRooted) : (result.toOption.getD t).IsRooted := by
  cases result with
  | error cause => exact h
  | ok t' => exact hresult t' rfl

theorem IsRooted.apply (h : t.IsRooted) (operation : Operation) : (t.apply operation).IsRooted := by
  cases operation with
  | writeFile path bytes => exact h.getD fun t' => h.writeFile
  | removeFile path => exact h.getD fun t' => h.removeFile
  | makeDirectories path => exact h.makeDirectories path
  | rename path target => exact h.getD fun t' => h.rename
  | writeTemplate path force => exact h.writeTemplate path force

theorem IsRooted.run (h : t.IsRooted) (operations : List Operation) :
    (t.run operations).IsRooted := by
  induction operations generalizing t with
  | nil => exact h
  | cons operation operations ih => exact ih (h.apply operation)

/-- In a tree that comes about by operations, of which some can fail, every entry lies in a
directory. -/
theorem isRooted_run_empty (working : Location) (operations : List Operation) :
    (run { working } operations).IsRooted :=
  (isRooted_empty working).run operations

/-- What is written into a new directory moves along with it. -/
example :
    let t := run {} [.makeDirectories "new".toList, .writeFile "new/keys.conf".toList .empty,
      .rename "new".toList "old".toList]
    (t.read "old/keys.conf".toList matches .content _) ∧
      (t.read "new/keys.conf".toList matches .missing) :=
  ⟨rfl, rfl⟩

end Keymap.FileTree

import Keymap.Proofs.Files.Walk

/-! # Making the directories above a path

The directories above a path are made from the top, and what has been made before a
failure stays. Either way the tree grows by nothing but directories that were missing
and that beginnings of the path lead to.
-/
namespace Keymap.FileTree

open Keymap.Path

variable {t t' : FileTree} {place up : Location} {path name : Text}

/-- The trees differ in nothing but directories that were missing and that beginnings of the path
lead to. -/
structure GrowsAlong (path : Text) (t t' : FileTree) : Prop where
  get? : ∀ place, t'.get? place = t.get? place ∨
    t.get? place = none ∧ t'.get? place = some .directory ∧
      ∃ start, start <+: path ∧ t'.resolve start = .ok place
  working : t'.working = t.working

theorem GrowsAlong.growsTo (h : GrowsAlong path t t') : t.GrowsTo t' := by
  refine ⟨?_, h.working⟩
  intro place entry hplace
  rcases h.get? place with hsame | ⟨hnone, -, -⟩
  · rw [hsame, hplace]
  · rw [hnone] at hplace
    cases hplace

theorem GrowsAlong.refl (path : Text) (t : FileTree) : GrowsAlong path t t :=
  ⟨fun _ => Or.inl rfl, rfl⟩

theorem GrowsAlong.trans {t'' : FileTree} (h : GrowsAlong path t t') (h' : GrowsAlong path t' t'') :
    GrowsAlong path t t'' := by
  refine ⟨?_, h'.working.trans h.working⟩
  intro place
  rcases h'.get? place with hsame | ⟨hnone, hmade, hstart⟩
  · rw [hsame]
    rcases h.get? place with hsame' | ⟨hnone, hmade, start, hstart, hresolve⟩
    · exact Or.inl hsame'
    · exact Or.inr ⟨hnone, hmade, start, hstart, h'.growsTo.retains.resolve hresolve⟩
  · rcases h.get? place with hsame' | ⟨-, hmade', -⟩
    · exact Or.inr ⟨hsame' ▸ hnone, hmade, hstart⟩
    · rw [hnone] at hmade'
      cases hmade'

theorem GrowsAlong.mono {start : Text} (hstart : start <+: path) (h : GrowsAlong start t t') :
    GrowsAlong path t t' := by
  refine ⟨?_, h.working⟩
  intro place
  rcases h.get? place with hsame | ⟨hnone, hmade, first, hfirst, hresolve⟩
  · exact Or.inl hsame
  · exact Or.inr ⟨hnone, hmade, first, hfirst.trans hstart, hresolve⟩

/-! ## One directory -/

theorem makeDirectory_eq_ok_iff : t.makeDirectory path = .ok t' ↔ ∃ up name,
    t.site path = .ok (up, name) ∧ name ≠ dot ∧ name ≠ dotDot ∧ t.get? (name :: up) = none ∧
      t' = (t.put (name :: up) .directory).note (.created (name :: up)) := by
  rw [makeDirectory, Traversal.bind_eq_ok_iff]
  constructor
  · rintro ⟨⟨up, name⟩, hsite, h⟩
    refine ⟨up, name, hsite, ?_⟩
    simp only at h
    split_ifs at h with hnew
    simp only [not_or, Option.not_isSome_iff_eq_none] at hnew
    exact ⟨hnew.1, hnew.2.1, hnew.2.2, (Except.ok.inj h).symm⟩
  · rintro ⟨up, name, hsite, hdot, hdots, hnew, rfl⟩
    exact ⟨(up, name), hsite, by simp [hdot, hdots, hnew]⟩

/-- Behind the name of a new entry a path has nothing but slashes. -/
theorem splitOn_eq_of_dropWhile {outer : List Text}
    (h : (path.splitOn '/').reverse.dropWhile List.isEmpty = name :: outer) :
    isIdle name = (name == dot) ∧ ∃ slashes : List Text, (∀ segment ∈ slashes, segment = []) ∧
      path.splitOn '/' = outer.reverse ++ name :: slashes := by
  have hname := List.head?_dropWhile_not List.isEmpty (path.splitOn '/').reverse
  rw [h] at hname
  replace hname : name.isEmpty = false := hname
  refine ⟨by simp [isIdle, hname], ((path.splitOn '/').reverse.takeWhile List.isEmpty).reverse,
    ?_, ?_⟩
  · intro segment hsegment
    exact List.isEmpty_iff.1 (List.mem_takeWhile_imp (List.mem_reverse.1 hsegment))
  · have happend := List.takeWhile_append_dropWhile (p := List.isEmpty)
      (l := (path.splitOn '/').reverse)
    rw [h] at happend
    simpa using (congrArg List.reverse happend).symm

/-- The path of a new entry resolves to it once the entry has been made. -/
theorem resolve_of_site (hsite : t.site path = .ok (up, name)) (hdot : name ≠ dot)
    (hdots : name ≠ dotDot) (h : t.Retains t') (hmade : t'.isDirectory (name :: up)) :
    t'.resolve path = .ok (name :: up) := by
  unfold site at hsite
  split at hsite
  case h_1 =>
    split_ifs at hsite
    obtain ⟨-, rfl⟩ := Prod.mk.inj (Except.ok.inj hsite)
    exact absurd rfl hdot
  case h_2 last outer hup =>
    obtain ⟨place, hwalk, hsite⟩ := Traversal.bind_eq_ok_iff.1 hsite
    split_ifs at hsite with hdir
    obtain ⟨rfl, rfl⟩ := Prod.mk.inj (Except.ok.inj hsite)
    obtain ⟨hidle, slashes, hslashes, hsplit⟩ := splitOn_eq_of_dropWhile hup
    rw [resolve_eq_ok_iff, hsplit, h.start, walk_append_eq_ok_iff]
    refine ⟨?_, place, h.walk hwalk, walk_cons_eq_ok_iff.2 ⟨last :: place, ?_, ?_⟩⟩
    · rintro rfl
      cases hup
    · apply (step_of_isName (hidle.trans (beq_false_of_ne hdot)) hdots).2
      exact ⟨h.isDirectory hdir, Option.isSome_of_eq_some (isDirectory_iff.1 hmade), rfl⟩
    · apply walk_of_isIdle hmade
      intro segment hsegment
      rw [hslashes segment hsegment]
      rfl

theorem growsAlong_makeDirectory (h : t.makeDirectory path = .ok t') : GrowsAlong path t t' := by
  obtain ⟨up, name, hsite, hdot, hdots, hnew, rfl⟩ := makeDirectory_eq_ok_iff.1 h
  have hget (place : Location) :
      ((t.put (name :: up) .directory).note (.created (name :: up))).get? place =
        if place = name :: up then some .directory else t.get? place :=
    get?_note_put (List.cons_ne_nil name up) place
  have hgrows : t.GrowsTo ((t.put (name :: up) .directory).note (.created (name :: up))) := by
    refine ⟨?_, rfl⟩
    intro place entry hentry
    rw [hget, if_neg, hentry]
    rintro rfl
    rw [hnew] at hentry
    cases hentry
  refine ⟨?_, rfl⟩
  intro place
  rw [hget]
  split_ifs with hplace
  · rw [hplace]
    refine Or.inr ⟨hnew, rfl, path, List.prefix_rfl, ?_⟩
    apply resolve_of_site hsite hdot hdots hgrows.retains
    rw [isDirectory_iff, hget, if_pos rfl]
  · exact Or.inl rfl

/-! ## All of them -/

/-- What is kept by each directory that is made is kept by all of them together. -/
theorem makeDirectoriesUp_induction {R : FileTree → FileTree → Prop} {start : Text}
    {segments : List Text} (hrefl : ∀ t, R t t)
    (htrans : ∀ {t t' t''}, R t t' → R t' t'' → R t t'')
    (hmake : ∀ {kept t t'}, kept <:+ segments →
      t.makeDirectory (ofSegmentsUp start kept) = .ok t' → R t t') (t : FileTree) :
    R t (t.makeDirectoriesUp start segments).2 := by
  induction segments generalizing t with
  | nil => exact hrefl t
  | cons segment outer ih =>
    have habove := ih (fun hkept => hmake (hkept.trans (List.suffix_cons segment outer))) t
    rw [makeDirectoriesUp]
    split_ifs with hidle
    · exact habove
    · dsimp only
      split
      · split
        case h_1 heq =>
          rw [heq] at habove
          split
          case h_1 hmade => exact htrans habove (hmake List.suffix_rfl hmade)
          case h_2 => exact habove
        case h_2 heq =>
          rw [heq] at habove
          exact habove
      · split
        case h_1 hmade => exact hmake List.suffix_rfl hmade
        case h_2 => exact hrefl t

theorem growsAlong_makeDirectories (t : FileTree) (path : Text) :
    GrowsAlong path t (t.makeDirectories path).2 :=
  makeDirectoriesUp_induction (GrowsAlong.refl path) GrowsAlong.trans
    (fun hkept h => (growsAlong_makeDirectory h).mono (ofSegmentsUp_isPrefix hkept)) t

theorem growsAlong_makeParents (t : FileTree) (path : Text) :
    GrowsAlong path t (t.makeParents path).2 := by
  unfold makeParents
  split
  · next parent hparent =>
    exact (growsAlong_makeDirectories t parent).mono (parent?_isPrefix hparent)
  · exact GrowsAlong.refl path t

end Keymap.FileTree

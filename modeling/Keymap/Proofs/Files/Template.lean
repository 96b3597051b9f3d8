import Keymap.Template
import Keymap.Proofs.Files.Parents

/-! # Writing the template without force

Without force the template replaces no file that the path resolves to. The path and
its target are not always the same, though: the path of a file with a slash behind it
does not resolve, and still targets the file. Main statement: a path that has no two
dots, or whose directory exists, costs a file its content exactly where it does not end
in a name and targets that file.
-/
namespace Keymap.FileTree

open Keymap.Path

variable {t t' : FileTree} {place : Location} {path name : Text} {bytes : ByteArray}

def KeepsFiles (t t' : FileTree) : Prop :=
  ∀ place content, t.get? place = some (.file content) → t'.get? place = some (.file content)

/-! ## A directory that is there already -/

theorem site_of_resolve {target : Location} (h : t.resolve path = .ok target) :
    ∃ up name, t.site path = .ok (up, name) ∧
      (name = dot ∨ name = dotDot ∨ (t.get? (name :: up)).isSome) := by
  obtain ⟨hpath, hwalk⟩ := resolve_eq_ok_iff.1 h
  unfold site
  split
  case h_1 => exact ⟨[], dot, by simp [hpath], Or.inl rfl⟩
  case h_2 name outer hup =>
    obtain ⟨hname, slashes, -, hsplit⟩ := splitOn_eq_of_dropWhile hup
    rw [hsplit, walk_append_eq_ok_iff] at hwalk
    obtain ⟨up, houter, hrest⟩ := hwalk
    obtain ⟨next, hstep, -⟩ := walk_cons_eq_ok_iff.1 hrest
    obtain ⟨hdir, hnext⟩ := step_eq_ok_iff.1 hstep
    refine ⟨up, name, by simp [houter, hdir, bind, Except.bind], ?_⟩
    rcases hnext with ⟨hidle, -⟩ | ⟨hdots, -⟩ | ⟨-, -, hexists, -⟩
    · exact Or.inl (eq_of_beq (hname.symm.trans hidle))
    · exact Or.inr (Or.inl hdots)
    · exact Or.inr (Or.inr hexists)

theorem makeDirectory_of_resolve {target : Location} (h : t.resolve path = .ok target) :
    t.makeDirectory path = .error .alreadyExists := by
  obtain ⟨up, name, hsite, hname⟩ := site_of_resolve h
  simp [makeDirectory, hsite, hname, bind, Except.bind]

/-- The directories of a path that leads to one are all there. -/
theorem makeDirectories_of_enters {target : Location}
    (h : t.Enters (t.start path) (names path) target) : t.makeDirectories path = (.ok (), t) := by
  unfold makeDirectories
  cases hup : segmentsUp path with
  | nil => rfl
  | cons segment outer =>
    have hkept : segment :: outer <:+ segmentsUp path := hup ▸ List.suffix_rfl
    have hnames : names (ofSegmentsUp (lead path) (segment :: outer)) = names path := by
      rw [names_ofSegmentsUp hkept, names_eq_filter_segmentsUp, hup]
    have hne : ofSegmentsUp (lead path) (segment :: outer) ≠ [] := by
      intro hnil
      rw [hnil, names_of_segmentsUp hup] at hnames
      simp [names, isIdle] at hnames
    have hresolve := (resolve_directory_iff hne).2 <| by
      rw [hnames, start, isAbsolute_ofSegmentsUp hkept hne]
      exact h
    simp [makeDirectoriesUp, isIdle_of_segmentsUp hup, makeDirectory_of_resolve hresolve.1,
      isDirectoryPath, hresolve]

theorem makeParents_of_targets (h : t.Targets path place) : t.makeParents path = (.ok (), t) := by
  obtain ⟨name, up, hname, hup, rfl⟩ := h
  have henters := (resolve_directory_iff (directory_ne_nil path)).1 hup
  unfold makeParents
  split
  case h_2 => rfl
  case h_1 parent hparent =>
    cases parent with
    | nil => rfl
    | cons c rest =>
      rw [show directory path = c :: rest by rw [directory, hparent]] at henters
      exact makeDirectories_of_enters henters

/-! ## Replacing the target -/

theorem run_adapt {α : Type} (x : ExceptT FileError (StateM FileTree) α)
    (f : FileError → ConfigError) (t : FileTree) :
    (x.adapt f).run t = ((x.run t).1.mapError f, (x.run t).2) := rfl

/-- A step that fails ends the writing and leaves its tree behind. -/
theorem run_adapt_bind {α β : Type} (x : ExceptT FileError (StateM FileTree) α)
    (f : FileError → ConfigError) (next : α → ExceptT ConfigError (StateM FileTree) β)
    (t : FileTree) :
    (x.adapt f >>= next).run t =
      match x.run t with
      | (.ok a, t) => (next a).run t
      | (.error cause, t) => (.error (f cause), t) := by
  have hbind : (x.adapt f >>= next).run t =
      ExceptT.bindCont next ((x.adapt f).run t).1 ((x.adapt f).run t).2 := rfl
  rw [hbind, run_adapt]
  rcases x.run t with ⟨cause | a, t⟩ <;> rfl

theorem replaceFile_eq (t : FileTree) (path : Text) (bytes : ByteArray) : t.replaceFile path bytes =
    match fileName? path with
    | none => (.error (.openFailed .isDirectory), t)
    | some name =>
      match t.resolve (directory path) with
      | .error cause => (.error (.openFailed cause), t)
      | .ok up =>
        if t.isDirectory up then
          if t.isDirectory (name :: up) then (.error (.commitFailed .isDirectory), t)
          else (.ok (), (t.put (name :: up) (.file bytes)).note (.moved none (name :: up)))
        else (.error (.openFailed .notDirectory), t) := by
  rw [replaceFile, Template.replace]
  cases fileName? path with
  | none => rfl
  | some name =>
    have hopen : (templateSteps.openBeside (directory path) name).run t =
        match t.resolve (directory path) with
        | .error cause => (.error cause, t)
        | .ok up =>
          (if t.isDirectory up then .ok (up, .empty) else .error .notDirectory, t) := rfl
    have hfill (up : Location) :
        (templateSteps.fill (up, .empty) bytes).run t = (.ok (up, bytes), t) := rfl
    have hcommit (up : Location) : (templateSteps.commit (up, bytes) name).run t =
        if t.isDirectory (name :: up) then (.error .isDirectory, t)
        else (.ok (), (t.put (name :: up) (.file bytes)).note (.moved none (name :: up))) := rfl
    dsimp only
    rw [run_adapt_bind, hopen]
    cases t.resolve (directory path) with
    | error cause => rfl
    | ok up =>
      dsimp only
      cases t.isDirectory up with
      | false => rfl
      | true =>
        simp only [if_true, run_adapt_bind, hfill, run_adapt, hcommit]
        split_ifs <;> rfl

theorem replaceFile_eq_ok_iff : t.replaceFile path bytes = (.ok (), t') ↔ ∃ place,
    t.Targets path place ∧ t.isDirectory place = false ∧
      t' = (t.put place (.file bytes)).note (.moved none place) := by
  rw [replaceFile_eq]
  constructor
  · intro h
    split at h
    case h_1 => cases h
    case h_2 name hname =>
      split at h
      case h_1 => cases h
      case h_2 up hup =>
        split_ifs at h with hdir hplace
        · cases h
        · refine ⟨name :: up, ⟨name, up, hname, ⟨hup, hdir⟩, rfl⟩, by simpa using hplace, ?_⟩
          exact (Prod.mk.inj h).2.symm
        · cases h
  · rintro ⟨_, ⟨name, up, hname, ⟨hup, hdir⟩, rfl⟩, hplace, rfl⟩
    simp [hname, hup, hdir, hplace]

/-- A file that cannot be replaced leaves the tree as it is. -/
theorem replaceFile_of_error {cause : ConfigError}
    (h : t.replaceFile path bytes = (.error cause, t')) : t' = t := by
  rw [replaceFile_eq] at h
  split at h
  case h_1 => exact (Prod.mk.inj h).2.symm
  case h_2 =>
    split at h
    case h_1 => exact (Prod.mk.inj h).2.symm
    case h_2 =>
      split_ifs at h
      · exact (Prod.mk.inj h).2.symm
      · cases h
      · exact (Prod.mk.inj h).2.symm

theorem Targets.ne_nil (h : t.Targets path place) : place ≠ [] := by
  obtain ⟨name, up, -, -, rfl⟩ := h
  exact List.cons_ne_nil name up

theorem get?_replaceFile (h : t.replaceFile path bytes = (.ok (), t'))
    (htarget : t.Targets path place) (q : Location) :
    t'.get? q = if q = place then some (.file bytes) else t.get? q := by
  obtain ⟨other, hother, -, rfl⟩ := replaceFile_eq_ok_iff.1 h
  rw [hother.unique htarget, get?_note_put htarget.ne_nil]

/-! ## The template -/

theorem value_writeTemplate (t : FileTree) (path : Text) (force : Bool) :
    (t.writeTemplate path force).value =
      if t.pathExists path && !force then (.error (.alreadyExists path), t)
      else
        match t.makeParents path with
        | (.error cause, t) => (.error (.file cause), t)
        | (.ok (), t) => t.replaceFile path Template.text.encode := by
  have hvalue : (t.writeTemplate path force).value =
      (Template.write templateSteps path force).run t := by
    rw [writeTemplate]
    split <;> rfl
  have hexists (next : Bool → ExceptT ConfigError (StateM FileTree) Unit) :
      (liftM (templateSteps.pathExists path) >>= next).run t = (next (t.pathExists path)).run t :=
    rfl
  have hparents : (templateSteps.makeParents path).run t = t.makeParents path := rfl
  rw [hvalue, Template.write, hexists]
  split_ifs
  · rfl
  · rw [run_adapt_bind, hparents]
    rcases t.makeParents path with ⟨cause | _, t⟩ <;> rfl

theorem writeTemplate_of_pathExists (h : t.pathExists path) :
    (t.writeTemplate path false).value.2 = t := by
  simp [value_writeTemplate, h]

/-- A template that cannot be written leaves directories on its way behind at the most. Otherwise
its target is replaced once these are there. -/
theorem cases_writeTemplate (t : FileTree) (path : Text) (force : Bool) :
    (∃ cause, (t.writeTemplate path force).value.1 = .error cause) ∧
        ((t.writeTemplate path force).value.2 = t ∨
          (t.writeTemplate path force).value.2 = (t.makeParents path).2) ∨
      (t.writeTemplate path force).value.1 = .ok () ∧
        (t.makeParents path).2.replaceFile path Template.text.encode =
          (.ok (), (t.writeTemplate path force).value.2) := by
  rw [value_writeTemplate]
  split
  · exact Or.inl ⟨⟨_, rfl⟩, Or.inl rfl⟩
  · split
    case h_1 heq =>
      rw [heq]
      exact Or.inl ⟨⟨_, rfl⟩, Or.inr rfl⟩
    case h_2 grown heq =>
      rw [heq]
      cases hreplace : grown.replaceFile path Template.text.encode with
      | mk result after =>
        cases result with
        | error cause => exact Or.inl ⟨⟨cause, rfl⟩, Or.inr (replaceFile_of_error hreplace)⟩
        | ok => exact Or.inr ⟨rfl, rfl⟩

theorem growsAlong_of_eq_or_eq (h : t' = t ∨ t' = (t.makeParents path).2) :
    GrowsAlong path t t' := by
  rcases h with rfl | rfl
  · exact GrowsAlong.refl path t'
  · exact growsAlong_makeParents t path

/-- A file that is lost was the target of the path in the grown tree. -/
theorem targets_of_lost {content : ByteArray} (hfile : t.get? place = some (.file content))
    (hlost : (t.writeTemplate path false).value.2.get? place ≠ some (.file content)) :
    t.pathExists path = false ∧ (t.makeParents path).2.Targets path place ∧
      content ≠ Template.text.encode := by
  cases hexists : t.pathExists path with
  | true =>
    rw [writeTemplate_of_pathExists hexists] at hlost
    exact absurd hfile hlost
  | false =>
    rcases cases_writeTemplate t path false with ⟨-, htree⟩ | ⟨-, hreplace⟩
    · exact absurd ((growsAlong_of_eq_or_eq htree).growsTo.get? hfile) hlost
    · obtain ⟨target, htarget, -, -⟩ := replaceFile_eq_ok_iff.1 hreplace
      rw [get?_replaceFile hreplace htarget] at hlost
      split_ifs at hlost with hplace
      · rw [hplace]
        refine ⟨rfl, htarget, ?_⟩
        intro hsame
        rw [hsame] at hlost
        exact absurd rfl hlost
      · exact absurd ((growsAlong_makeParents t path).growsTo.get? hfile) hlost

/-- A path that does not resolve and targets a file replaces it. -/
theorem get?_writeTemplate_of_targets (hexists : t.pathExists path = false)
    (htarget : t.Targets path place) (hdir : t.isDirectory place = false) :
    (t.writeTemplate path false).value.2.get? place = some (.file Template.text.encode) := by
  have hreplace : t.replaceFile path Template.text.encode = (.ok (), _) :=
    replaceFile_eq_ok_iff.2 ⟨place, htarget, hdir, rfl⟩
  simp only [value_writeTemplate, hexists, makeParents_of_targets htarget, hreplace,
    Bool.false_and, Bool.false_eq_true, if_false]
  rw [get?_note_put htarget.ne_nil, if_pos rfl]

/-- Without force the template costs a file its content exactly where the path does not end in a
name and targets that file. Two dots behind a missing directory are left out: the directory is made
before the target is looked up, and was not there when the path was. -/
theorem keepsFiles_writeTemplate_iff (hroot : t.IsRooted)
    (hpath : dotDot ∉ path.splitOn '/' ∨ t.pathExists (directory path)) :
    t.KeepsFiles (t.writeTemplate path false).value.2 ↔ EndsInName path ∨
      ∀ place content, t.Targets path place → t.get? place = some (.file content) →
        content = Template.text.encode := by
  constructor
  · intro hkeeps
    rw [or_iff_not_imp_left]
    intro hend place content htarget hfile
    have hexists : t.pathExists path = false := by
      rw [Bool.eq_false_iff, ne_eq, pathExists_iff, not_exists]
      exact not_resolve_of_targets htarget hfile hend
    have hwritten := get?_writeTemplate_of_targets hexists htarget
      (isDirectory_eq_false_of_file hfile)
    have hkept := hkeeps place content hfile
    rw [hwritten] at hkept
    simpa using hkept.symm
  · intro hsafe place content hfile
    by_contra hlost
    obtain ⟨hexists, htarget, hcontent⟩ := targets_of_lost hfile hlost
    have htarget' := hroot.targets_of_growsTo (growsAlong_makeParents t path).growsTo hpath htarget
      hfile
    rcases hsafe with hend | hsame
    · have hresolve := resolve_of_targets htarget' (Option.isSome_of_eq_some hfile) hend
      rw [pathExists_iff.2 ⟨place, hresolve⟩] at hexists
      cases hexists
    · exact hcontent (hsame place content htarget' hfile)

def configured : FileTree :=
  { entries := [(["keys.conf".toList], .file (Text.encode "submit-input = F5\n".toList))] }

theorem isRooted_configured : configured.IsRooted := by
  intro name up entry h
  cases up with
  | nil => rfl
  | cons outer up => simp [get?, configured, List.lookup_cons] at h

theorem not_keepsFiles_configured {t : FileTree}
    (h : t.get? ["keys.conf".toList] = some (.file Template.text.encode)) :
    ¬configured.KeepsFiles t := by
  intro hkeeps
  have hkept := hkeeps ["keys.conf".toList] (Text.encode "submit-input = F5\n".toList) rfl
  rw [h] at hkept
  have htext := congrArg Text.decode? (Entry.file.inj (Option.some.inj hkept))
  rw [Text.decode?_encode, Text.decode?_encode] at htext
  cases htext

/-- A missing directory on the way is made, and the file outside it is kept. -/
theorem keepsFiles_writeTemplate_newDirectory :
    configured.IsRooted ∧ dotDot ∉ "./new//keys.conf".toList.splitOn '/' ∧
      configured.KeepsFiles (configured.writeTemplate "./new//keys.conf".toList false).value.2 := by
  refine ⟨isRooted_configured, by decide, ?_⟩
  apply (keepsFiles_writeTemplate_iff isRooted_configured (Or.inl (by decide))).2
  exact Or.inl ⟨"keys.conf".toList, rfl, rfl⟩

/-- A slash or a lone dot behind the name of a file costs the file its content, and so do two dots
behind a directory that is missing. -/
theorem writeTemplate_loses_file :
    ¬configured.KeepsFiles (configured.writeTemplate "keys.conf/".toList false).value.2 ∧
      ¬configured.KeepsFiles (configured.writeTemplate "keys.conf/.".toList false).value.2 ∧
      ¬configured.KeepsFiles
        (configured.writeTemplate "new/../keys.conf".toList false).value.2 := by
  simp only [value_writeTemplate, replaceFile_eq]
  exact ⟨not_keepsFiles_configured rfl, not_keepsFiles_configured rfl,
    not_keepsFiles_configured rfl⟩

end Keymap.FileTree

import Keymap.Proofs.Active.Reload
import Keymap.Proofs.Bindings.Patterns
import Keymap.Proofs.Files.Template

/-! # What writing the template changes

With or without force, a template that cannot be written costs no file its content. One
that is written changes one file, and reading this file gives the default bindings. All
else that can be new in the tree are the directories on the way. This holds of every
tree, and whichever step it is that fails.
-/
namespace Keymap.FileTree

open Keymap.Path

variable {t t' : FileTree} {path : Text} {place : Location} {bytes : ByteArray}

theorem GrowsTo.keepsFiles (h : t.GrowsTo t') : t.KeepsFiles t' := fun _ _ => h.get?

theorem retains_replaceFile (h : t.replaceFile path bytes = (.ok (), t')) : t.Retains t' := by
  obtain ⟨target, htarget, hdir, rfl⟩ := replaceFile_eq_ok_iff.1 h
  exact retains_put_file htarget.ne_nil hdir

/-! ## Reading the template -/

theorem parse_template : ConfigFile.parse Template.text = .ok Bindings.default.patterns := by
  decide +kernel

theorem build_template (path : Text) :
    ConfigFile.build path (.content Template.text.encode) = .ok Bindings.default := by
  rw [ConfigFile.build_eq_ok_iff]
  refine ⟨Bindings.default.patterns, ?_, Bindings.build_patterns .default⟩
  rw [ConfigFile.ofReading, Text.decode?_encode]
  exact parse_template

/-- The own path of a target, without the slashes and lone dots that the path can have behind its
last name, resolves to it. -/
theorem exists_resolve_of_targets (htarget : t.Targets path place)
    (hexists : (t.get? place).isSome) : ∃ own, own <+: path ∧ EndsInName own ∧
      names own = names path ∧ t.resolve own = .ok place := by
  obtain ⟨name, up, hname, hup⟩ := id htarget
  obtain ⟨last, outer, hsegments⟩ : ∃ last outer, segmentsUp path = last :: outer := by
    apply List.exists_cons_of_ne_nil
    intro hnil
    simp [fileName?, hnil] at hname
  have hend := endsInName_ofSegmentsUp hsegments
  have hnames : names (ofSegmentsUp (lead path) (segmentsUp path)) = names path := by
    rw [names_ofSegmentsUp List.suffix_rfl, ← names_eq_filter_segmentsUp]
  have hne : ofSegmentsUp (lead path) (segmentsUp path) ≠ [] := by
    intro hnil
    rw [hnil] at hend
    obtain ⟨_, ⟨rfl⟩, hidle⟩ := hend
    cases hidle
  have hown := (targets_congr hnames (isAbsolute_ofSegmentsUp List.suffix_rfl hne)).2 htarget
  exact ⟨_, ofSegmentsUp_isPrefix List.suffix_rfl, hend, hnames,
    resolve_of_targets hown hexists hend⟩

/-! ## The frame -/

/-- The trees differ in one file, which has the given content now and was no directory, and in
directories that were missing and that beginnings of the path lead to. -/
structure Gains (path : Text) (place : Location) (bytes : ByteArray) (t t' : FileTree) :
    Prop where
  targets : t'.Targets path place
  file : t'.get? place = some (.file bytes)
  isDirectory : t.isDirectory place = false
  others : ∀ other ≠ place, t'.get? other = t.get? other ∨
    t.get? other = none ∧ t'.get? other = some .directory ∧
      ∃ start, start <+: path ∧ t'.resolve start = .ok other
  working : t'.working = t.working

/-- The file that is replaced once the directories on its way are there is all that changes. -/
theorem exists_gains_of_replaceFile {grown : FileTree} (hgrows : GrowsAlong path t grown)
    (h : grown.replaceFile path bytes = (.ok (), t')) : ∃ place, Gains path place bytes t t' := by
  obtain ⟨place, htarget, hdir, ht'⟩ := replaceFile_eq_ok_iff.1 h
  have hget := get?_replaceFile h htarget
  have hretains := retains_replaceFile h
  refine ⟨place, hretains.targets htarget, by rw [hget, if_pos rfl], ?_, ?_,
    hretains.working.trans hgrows.working⟩
  · rw [Bool.eq_false_iff]
    intro hplace
    rw [hgrows.growsTo.isDirectory hplace] at hdir
    cases hdir
  · intro other hother
    rw [hget, if_neg hother]
    rcases hgrows.get? other with hsame | ⟨hnone, hmade, start, hstart, hresolve⟩
    · exact Or.inl hsame
    · exact Or.inr ⟨hnone, hmade, start, hstart, hretains.resolve hresolve⟩

/-- Writing the template fails and leaves every file as it was, or puts it in the one file that the
path targets, from whose own path it is read as the default bindings. -/
theorem writeTemplate_frame (t : FileTree) (path : Text) (force : Bool) :
    (∃ cause, (t.writeTemplate path force).value.1 = .error cause) ∧
        t.KeepsFiles (t.writeTemplate path force).value.2 ∧
        GrowsAlong path t (t.writeTemplate path force).value.2 ∨
      (t.writeTemplate path force).value.1 = .ok () ∧
        ∃ place, Gains path place Template.text.encode t (t.writeTemplate path force).value.2 ∧
          ∃ own, own <+: path ∧ EndsInName own ∧ names own = names path ∧
            (t.writeTemplate path force).value.2.resolve own = .ok place ∧
            (ConfigFile.loadBindings (t.writeTemplate path force).value.2 own).run.value =
              .ok Bindings.default := by
  rcases cases_writeTemplate t path force with ⟨herror, htree⟩ | ⟨hok, hreplace⟩
  · have hgrows := growsAlong_of_eq_or_eq htree
    exact Or.inl ⟨herror, hgrows.growsTo.keepsFiles, hgrows⟩
  · obtain ⟨place, hgains⟩ :=
      exists_gains_of_replaceFile (growsAlong_makeParents t path) hreplace
    obtain ⟨own, hstart, hend, hnames, hresolve⟩ :=
      exists_resolve_of_targets hgains.targets (Option.isSome_of_eq_some hgains.file)
    have hread : (t.writeTemplate path force).value.2.read own =
        .content Template.text.encode := by
      simp [read, hresolve, hgains.file]
    refine Or.inr ⟨hok, place, hgains, own, hstart, hend, hnames, hresolve, ?_⟩
    rw [ConfigFile.value_run_loadBindings, hread, build_template]

/-- No directory can be made in the place of a file, but one that was missing before it stays. -/
example :
    let written := (configured.writeTemplate "new/../keys.conf/own.conf".toList true).value
    written.1 = .error (.file .alreadyExists) ∧ written.2.isDirectory ["new".toList] :=
  ⟨rfl, rfl⟩

end Keymap.FileTree

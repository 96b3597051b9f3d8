import Keymap.Command.Report
import Keymap.Proofs.Active.Reload
import Keymap.Proofs.Command.Arguments
import Keymap.Proofs.Command.Lines
import Keymap.Proofs.Json.RoundTrip

/-! # Files and overrides

The patterns in force for a category are its overrides if there are any, and those of the
file if not. They alone decide whether an inspection of the bindings succeeds and what it
shows. Main statement: for every file and all overrides, the verdict of a check or a listing
is the one that these patterns deserve, and without overrides it is that of a reload.
-/
namespace Keymap

/-- A file is not found if and only if none is there: the faults of one that is there are others. -/
theorem ConfigFile.load_eq_notFound_iff {t : FileTree} {path missing : Text} :
    load t path = .error (.notFound missing) ↔ t.read path = .missing ∧ missing = path := by
  rw [load]
  cases t.read path with
  | missing => simp [ofReading, eq_comm]
  | unreadable cause => simp [ofReading]
  | content bytes =>
    rw [ofReading]
    cases Text.decode? bytes with
    | none => simp
    | some content =>
      simp only [reduceCtorEq, false_and, iff_false]
      intro h
      obtain ⟨_, _, _, -, -, hfault⟩ := parse_eq_error_iff.1 h
      cases hfault

namespace Command

/-- What is printed of bindings below the line about the configuration: the findings of a check, the
chords of every category in the order of dispatch, or a document from which the bindings can be
built again. -/
inductive Action.Shows (colour : Bool) (b : Bindings) : Action → Text → Prop
  | check {body lines} (hbody : Text.lines body = lines ++ [[]]) (h : TellsCheck colour b lines) :
      Shows colour b .check body
  | list {body lines} (hbody : Text.lines body = lines ++ [[]])
      (h : List.Forall₂ (TellsChords colour b) Category.all lines) :
      Shows colour b (.list false) body
  | document {body raw} (hread : Json.parseConfig body = .ok raw)
      (hb : Bindings.build raw = .ok b) : Shows colour b (.list true) body

namespace Action

variable {b : Bindings}

theorem shows_checkLines (hb : b.WellFormed) (colour : Bool) :
    check.Shows colour b ((checkLines colour b).flatMap (· ++ ['\n'])) :=
  .check (Text.lines_flatMap_newline fun _ => newline_not_mem_of_mem_checkLines hb)
    (tellsCheck_checkLines hb colour)

theorem shows_listLines (hb : b.Assembled) (colour json : Bool) :
    (list json).Shows colour b ((listLines colour b json).flatMap (· ++ ['\n'])) := by
  have hwf := hb.wellFormed
  cases json with
  | true =>
    have hdocument : (listLines colour b true).flatMap (· ++ ['\n']) =
        Json.pretty b.patterns ++ ['\n'] := by
      simp [listLines]
    rw [hdocument]
    exact .document (Json.parseConfig_pretty_newline b.patterns) (Bindings.build_patterns hb)
  | false =>
    have htells : List.Forall₂ (TellsChords colour b) Category.all
        (listLines colour b false) := by
      rw [listLines, if_neg Bool.false_ne_true, ByCategory.toList, List.map_map,
        List.forall₂_map_right_iff, List.forall₂_same]
      intro c _
      exact tellsChords_listLine hwf colour c
    refine .list (Text.lines_flatMap_newline ?_) htells
    intro line hline
    obtain ⟨c, -, hc⟩ := Traversal.exists_mem_of_forall₂ htells.flip hline
    rw [TellsChords.eq_chordsLine hwf hc]
    exact newline_not_mem_chordsLine c (hwf c)

end Action

namespace Request

/-- What a request finds for a file: its patterns, or none where no file is given and the default
one is missing. -/
inductive Finds (request : Request) (home : Text) (t : FileTree) : Config → Prop
  | loaded {file} (h : ConfigFile.load t (request.path home) = .ok file) : request.Finds home t file
  | missing (hdefault : request.config? = none) (h : t.read (request.path home) = .missing) :
      request.Finds home t Config.empty

def effective (request : Request) (file : Config) (c : Category) : List Text :=
  if request.overrides.get c = [] then file.get c else request.overrides.get c

def build (request : Request) (file : Config) : Except BindingError Bindings :=
  Bindings.build (ByCategory.ofFun (request.effective file))

/-- The output shows the bindings below the line about the configuration that is found. -/
def Prints (request : Request) (surroundings : Surroundings) (t : FileTree) (file : Config)
    (b : Bindings) (report : Report) : Prop :=
  ∃ origin body, sourceOf surroundings.colour request.config?.isSome
      (request.path surroundings.home) (ConfigFile.load t (request.path surroundings.home)) =
        .ok (origin, file) ∧
    report.output = origin ++ '\n' :: body ∧ request.action.Shows surroundings.colour b body

inductive Inspection (request : Request) (surroundings : Surroundings) (t : FileTree) :
    Report → Prop
  | shown {file b report} (hfile : request.Finds surroundings.home t file)
      (hb : request.build file = .ok b) (hsuccess : report.failure? = none)
      (h : request.Prints surroundings t file b report) :
      request.Inspection surroundings t report
  | rejected {file cause origin} (hfile : request.Finds surroundings.home t file)
      (h : request.build file = .error cause) :
      request.Inspection surroundings t { lines := [origin], failure? := some (.rejected cause) }
  | unread {failure} (h : ∀ file, ¬ request.Finds surroundings.home t file) :
      request.Inspection surroundings t { lines := [], failure? := some failure }

/-- What the report of a check or a listing says. The bindings it goes by are those of the patterns
in force; conflicts among them are shown and change nothing about the exit code. -/
structure Verdict (request : Request) (surroundings : Surroundings) (t : FileTree)
    (report : Report) : Prop where
  /-- The exit code is zero if and only if a file is found and all patterns in force stand for
  chords. -/
  exitCode_eq_zero_iff : report.exitCode = 0 ↔ ∃ file, request.Finds surroundings.home t file ∧
    ∀ c, ∀ p ∈ request.effective file c, ∃ chord, Pattern.chord p = .ok chord
  /-- What the output shows are the chords that the categories get from their patterns in force. -/
  shows {file} (hfile : request.Finds surroundings.home t file) (hexit : report.exitCode = 0) :
    ∃ b, request.build file = .ok b ∧
      (∀ c : Category, c.Gets (request.effective file c) (b.get c)) ∧
      (∀ c, request.overrides.get c ≠ [] → (∀ p ∈ request.overrides.get c, Pattern.isBlank p) →
        b.get c = Bindings.defaultChords c) ∧
      request.Prints surroundings t file b report
  /-- The patterns that a file has for overridden categories do not matter. -/
  overridden {file other t'}
    (hfile : ConfigFile.load t (request.path surroundings.home) = .ok file)
    (hother : ConfigFile.load t' (request.path surroundings.home) = .ok other)
    (h : ∀ c, request.overrides.get c = [] → other.get c = file.get c) :
    request.run surroundings t' = (report, t')
  /-- Without overrides, the exit code is zero if and only if a reload from the file succeeds, but
  for a default file that is missing. -/
  reloads_iff (hnone : request.overrides = Config.empty) (a : Active) :
    report.exitCode = 0 ↔
      (∃ s after, (a.reloadFile t (request.path surroundings.home)).value = (.ok s, after)) ∨
        request.config? = none ∧ t.read (request.path surroundings.home) = .missing
  /-- What the output shows without overrides are the bindings that a reload puts in use. -/
  activates (hnone : request.overrides = Config.empty) {a after : Active} {s : Snapshot}
    (h : (a.reloadFile t (request.path surroundings.home)).value = (.ok s, after)) :
    after.current = s ∧ ∃ file,
      ConfigFile.load t (request.path surroundings.home) = .ok file ∧
        request.Prints surroundings t file s.bindings report

variable {request : Request} {surroundings : Surroundings} {home : Text} {t : FileTree}
  {file other : Config} {report : Report}

theorem Finds.unique (h : request.Finds home t file) (h' : request.Finds home t other) :
    file = other := by
  have hmissing {config : Config} (hread : t.read (request.path home) = .missing)
      (hload : ConfigFile.load t (request.path home) = .ok config) : False := by
    rw [ConfigFile.load_eq_notFound_iff.2 ⟨hread, rfl⟩] at hload
    cases hload
  cases h with
  | loaded h =>
    cases h' with
    | loaded h' => exact Except.ok.inj (h.symm.trans h')
    | missing _ h' => exact (hmissing h' h).elim
  | missing _ h =>
    cases h' with
    | loaded h' => exact (hmissing h h').elim
    | missing _ _ => rfl

theorem finds_iff_exists_sourceOf (request : Request) (home : Text) (t : FileTree) (file : Config)
    (colour : Bool) :
    request.Finds home t file ↔ ∃ origin, sourceOf colour request.config?.isSome (request.path home)
        (ConfigFile.load t (request.path home)) = .ok (origin, file) := by
  constructor
  · intro h
    cases h with
    | loaded h =>
      rw [h]
      exact ⟨_, rfl⟩
    | missing hdefault h =>
      rw [ConfigFile.load_eq_notFound_iff.2 ⟨h, rfl⟩, hdefault]
      exact ⟨_, rfl⟩
  · rintro ⟨origin, h⟩
    unfold sourceOf at h
    split at h
    case h_1 config hload =>
      obtain ⟨-, rfl⟩ := Prod.mk.inj (Except.ok.inj h)
      exact .loaded hload
    case h_2 path hload hgiven =>
      obtain ⟨-, rfl⟩ := Prod.mk.inj (Except.ok.inj h)
      exact .missing (by simpa using hgiven) (ConfigFile.load_eq_notFound_iff.1 hload).1
    case h_3 => cases h

theorem ofFun_effective (request : Request) (file : Config) :
    ByCategory.ofFun (request.effective file) = file.override request.overrides := by
  apply ByCategory.ext_get
  intro c
  simp [effective, Config.override]

theorem effective_congr (h : ∀ c, request.overrides.get c = [] → other.get c = file.get c) :
    request.effective other = request.effective file := by
  funext c
  by_cases hc : request.overrides.get c = []
  · rw [effective, effective, if_pos hc, if_pos hc, h c hc]
  · rw [effective, effective, if_neg hc, if_neg hc]

theorem build_eq_ok_iff {b : Bindings} :
    request.build file = .ok b ↔
      (∀ c, ∀ p ∈ request.effective file c, ∃ chord, Pattern.chord p = .ok chord) ∧
        ∀ c : Category, c.Gets (request.effective file c) (b.get c) := by
  simp only [build, Bindings.build_eq_ok_iff_gets, ByCategory.get_ofFun]

theorem exists_build_eq_ok_iff :
    (∃ b, request.build file = .ok b) ↔
      ∀ c, ∀ p ∈ request.effective file c, ∃ chord, Pattern.chord p = .ok chord := by
  simp only [build, Bindings.exists_build_eq_ok_iff, ByCategory.get_ofFun]

theorem build_of_overrides_eq_empty (h : request.overrides = Config.empty) (file : Config) :
    request.build file = Bindings.build file := by
  rw [build, ofFun_effective, h, Config.override_empty]

theorem inspection_report (haction : request.action.Inspects)
    (surroundings : Surroundings) (t : FileTree) :
    request.Inspection surroundings t
      (request.report surroundings (ConfigFile.load t (request.path surroundings.home))) := by
  have hfinds (file : Config) :=
    request.finds_iff_exists_sourceOf surroundings.home t file surroundings.colour
  rw [Request.report]
  cases hsource : sourceOf surroundings.colour request.config?.isSome
      (request.path surroundings.home)
      (ConfigFile.load t (request.path surroundings.home)) with
  | error failure =>
    refine .unread fun file hfile => ?_
    obtain ⟨origin, h⟩ := (hfinds file).1 hfile
    cases hsource.symm.trans h
  | ok found =>
    obtain ⟨origin, file⟩ := found
    have hfile := (hfinds file).2 ⟨origin, hsource⟩
    dsimp only
    rw [← ofFun_effective, bindingsReport, ← build]
    cases hb : request.build file with
    | error cause => exact .rejected hfile hb
    | ok b =>
      have hbuilt : b.Assembled := .built hb
      obtain ⟨config?, overrides, action⟩ := request
      cases haction with
      | check =>
        refine .shown hfile hb rfl
          ⟨origin, _, hsource, ?_, Action.shows_checkLines hbuilt.wellFormed _⟩
        simp [Report.output, Report.prepend]
      | list =>
        refine .shown hfile hb rfl ⟨origin, _, hsource, ?_, Action.shows_listLines hbuilt _ _⟩
        simp [Report.output, Report.prepend]

theorem Inspection.exitCode_eq_zero_iff (h : request.Inspection surroundings t report) :
    report.exitCode = 0 ↔ ∃ file, request.Finds surroundings.home t file ∧
      ∃ b, request.build file = .ok b := by
  cases h with
  | shown hfile hb hsuccess =>
    refine ⟨fun _ => ⟨_, hfile, _, hb⟩, fun _ => ?_⟩
    rw [Report.exitCode, hsuccess]
    rfl
  | rejected hfile hb =>
    constructor
    · intro hexit
      cases hexit
    · rintro ⟨other, hother, b, hb'⟩
      rw [hother.unique hfile, hb] at hb'
      cases hb'
  | unread hnone =>
    constructor
    · intro hexit
      cases hexit
    · rintro ⟨file, hfile, -⟩
      exact absurd hfile (hnone file)

theorem Inspection.prints (h : request.Inspection surroundings t report)
    (hfile : request.Finds surroundings.home t file) {b : Bindings}
    (hb : request.build file = .ok b) : request.Prints surroundings t file b report := by
  cases h with
  | shown hother hb' _ hprints =>
    obtain rfl := hother.unique hfile
    obtain rfl := Except.ok.inj (hb.symm.trans hb')
    exact hprints
  | rejected hother hcause =>
    rw [hother.unique hfile, hb] at hcause
    cases hcause
  | unread hnone => exact absurd hfile (hnone file)

theorem run_of_inspects (haction : request.action.Inspects)
    (surroundings : Surroundings) (t : FileTree) :
    request.run surroundings t =
      (request.report surroundings (ConfigFile.load t (request.path surroundings.home)), t) := by
  rw [run]
  generalize request.action = action at haction
  cases haction <;> rfl

/-- Files that differ in overridden categories only are reported alike. -/
theorem report_congr (request : Request) (surroundings : Surroundings)
    (h : ∀ c, request.overrides.get c = [] → other.get c = file.get c) :
    request.report surroundings (.ok other) = request.report surroundings (.ok file) := by
  have hoverride : other.override request.overrides = file.override request.overrides := by
    rw [← ofFun_effective, effective_congr h, ofFun_effective]
  simp only [Request.report, sourceOf, hoverride]

theorem Inspection.verdict (haction : request.action.Inspects)
    (hreport : request.report surroundings (ConfigFile.load t (request.path surroundings.home)) =
      report)
    (h : request.Inspection surroundings t report) :
    request.Verdict surroundings t report where
  exitCode_eq_zero_iff := by
    simp only [h.exitCode_eq_zero_iff, exists_build_eq_ok_iff]
  shows := by
    intro file hfile hexit
    obtain ⟨other, hother, b, hb⟩ := h.exitCode_eq_zero_iff.1 hexit
    rw [hother.unique hfile] at hb
    have hgets := (build_eq_ok_iff.1 hb).2
    refine ⟨b, hb, hgets, ?_, h.prints hfile hb⟩
    intro c hc hblank
    apply (hgets c).eq_default
    rwa [effective, if_neg hc]
  overridden := by
    intro file other t' hfile hother hagree
    rw [run_of_inspects haction, hother, report_congr request surroundings hagree, ← hfile, hreport]
  reloads_iff := by
    intro hnone a
    simp only [h.exitCode_eq_zero_iff, build_of_overrides_eq_empty hnone,
      Active.value_reloadFile_eq_ok_iff]
    constructor
    · rintro ⟨file, hfile, b, hb⟩
      cases hfile with
      | loaded hload => exact .inl ⟨_, _, file, b, hload, hb, rfl, rfl⟩
      | missing hdefault hread => exact .inr ⟨hdefault, hread⟩
    · rintro (⟨-, -, file, b, hload, hb, -, -⟩ | ⟨hdefault, hread⟩)
      · exact ⟨file, .loaded hload, b, hb⟩
      · exact ⟨Config.empty, .missing hdefault hread, Bindings.default, rfl⟩
  activates := by
    intro hnone a after s hreload
    obtain ⟨file, b, hload, hb, rfl, rfl⟩ := Active.value_reloadFile_eq_ok_iff.1 hreload
    refine ⟨rfl, file, hload, h.prints (.loaded hload) ?_⟩
    rw [build_of_overrides_eq_empty hnone]
    exact hb

end Request

/-- Every request for a check or a listing can be made, with any overrides and any file, and however
it is written its report is the one that the patterns in force deserve. It leaves the files as they
are. -/
theorem verdict_of_inspects (request : Request) (haction : request.action.Inspects) :
    (∃ arguments, parse arguments = .ok (.request request)) ∧
      ∀ arguments, parse arguments = .ok (.request request) → ∀ surroundings t,
        ∃ report, run surroundings t arguments = .ok (report, t) ∧
          request.Verdict surroundings t report := by
  refine ⟨exists_parse_eq_request haction, ?_⟩
  intro arguments hparse surroundings t
  refine ⟨request.report surroundings (ConfigFile.load t (request.path surroundings.home)), ?_,
    (request.inspection_report haction surroundings t).verdict haction rfl⟩
  rw [run, hparse, ← Request.run_of_inspects haction]
  rfl

def malformedTree : FileTree :=
  { entries := [(["keys.conf".toList],
      .file (Text.encode "commit-completion = Hyper\nsubmit-input = F5\n".toList))] }

def blankOverride : List Text :=
  ["list", "-ckeys.conf", "--commit-completion="].map String.toList

def blankOverrideLines : List Text :=
  ["commit-completion → Enter, Tab, Space, ., (",
    "trigger-completion-list → Control+Space, Control+J",
    "insert-newline → (not bound, shell default)",
    "submit-input → F5"].map String.toList

/-- A blank override puts the default in force where the pattern of the file stands for nothing. -/
theorem verdict_of_inspects_blankOverride :
    ∃ request report, request.action.Inspects ∧ parse blankOverride = .ok (.request request) ∧
      run ⟨[], false⟩ malformedTree blankOverride = .ok (report, malformedTree) ∧
      request.Verdict ⟨[], false⟩ malformedTree report ∧ report.exitCode = 0 ∧
      ∃ origin body, report.output = origin ++ '\n' :: body ∧
        Text.lines body = blankOverrideLines ++ [[]] := by
  let request : Request :=
    { config? := some "keys.conf".toList
      overrides := { Config.empty with commitCompletion := [[]] }
      action := .list false }
  let file : Config :=
    { Config.empty with commitCompletion := ["Hyper".toList], submitInput := ["F5".toList] }
  let bindings : Bindings := { Bindings.default with submitInput := [.named (.function 5) {}] }
  have hparse : parse blankOverride = .ok (.request request) := by cbv
  have hload : ConfigFile.load malformedTree "keys.conf".toList = .ok file := by
    have hread : malformedTree.read "keys.conf".toList =
        .content (Text.encode "commit-completion = Hyper\nsubmit-input = F5\n".toList) := rfl
    rw [ConfigFile.load, hread, ConfigFile.ofReading, Text.decode?_encode]
    rfl
  have hbuild : request.build file = .ok bindings := by decide +kernel
  have hwf : bindings.WellFormed := Bindings.wellFormed_of_build hbuild
  obtain ⟨report, hrun, hverdict⟩ :=
    (verdict_of_inspects request .list).2 blankOverride hparse ⟨[], false⟩ malformedTree
  have hexit : report.exitCode = 0 :=
    hverdict.exitCode_eq_zero_iff.2 ⟨file, .loaded hload, (Request.build_eq_ok_iff.1 hbuild).1⟩
  obtain ⟨b, hb, -, -, origin, body, -, houtput, hshows⟩ := hverdict.shows (.loaded hload) hexit
  obtain rfl := Except.ok.inj (hbuild.symm.trans hb)
  cases hshows with
  | @list _ lines hbody htells =>
    have hlines : Category.all.map (fun c => chordsLine false c (bindings.get c)) = lines := by
      rw [← List.forall₂_eq_eq_eq, List.forall₂_map_left_iff]
      exact htells.imp fun c line h => (TellsChords.eq_chordsLine hwf h).symm
    refine ⟨request, report, .list, hparse, hrun, hverdict, hexit, origin, body, houtput, ?_⟩
    rw [hbody, ← hlines]
    rfl

end Command

end Keymap

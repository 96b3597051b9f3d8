import Keymap.Proofs.Bindings.Firing
import Keymap.Proofs.Command.Overrides

/-! # Keys that are tried

Keys are tried one after the other on the bindings of the patterns in force. Each gets a line that
says what its press comes to, up to the first key that stands for no chord. Main statement: the
output has these lines behind the one about the configuration, and the exit code says whether all
keys stand for chords.
-/
namespace Keymap

namespace Command

namespace Effect

/-- The effect of a key with this chord. Where a category is asked for, it is whether the category
binds the chord, and otherwise which one is the first that does. -/
inductive Holds (b : Bindings) (key : Text) (chord : Chord) : Option Category → Effect → Prop
  | skipped {category?} (hblank : Pattern.isBlank key) : Holds b key chord category? .skipped
  | triggers {c} (hkey : ¬ Pattern.isBlank key) (hc : chord ∈ b.get c) :
      Holds b key chord (some c) (.triggers c)
  | misses {c} (hkey : ¬ Pattern.isBlank key) (hc : chord ∉ b.get c) :
      Holds b key chord (some c) (.misses c)
  | first {c} (hkey : ¬ Pattern.isBlank key) (hc : chord ∈ b.get c)
      (hfirst : ∀ d, chord ∈ b.get d → Category.all.idxOf c ≤ Category.all.idxOf d) :
      Holds b key chord none (.triggers c)
  | nothing (hkey : ¬ Pattern.isBlank key) (hnone : ∀ c, chord ∉ b.get c) :
      Holds b key chord none .nothing

variable {b : Bindings} {key : Text} {chord : Chord} {category? : Option Category} {e : Effect}

/-- The effect of a key is what the press of its chord comes to. -/
theorem holds_iff_ofPress {press : KeyPress} (hkey : ¬ Pattern.isBlank key)
    (hpress : chord.press? = some press) :
    Holds b key chord category? e ↔ OfPress b press category? e := by
  have hbinds (c : Category) := Bindings.matchesPress_press?_iff (b := b) hpress c
  constructor
  · intro h
    cases h with
    | skipped hblank => exact absurd hblank hkey
    | @triggers c _ hc => exact .triggers ((hbinds c).2 hc)
    | @misses c _ hc => exact .misses (mt (hbinds c).1 hc)
    | @first c _ hc hfirst =>
      obtain ⟨d, hdispatch, hd, hleast⟩ := Bindings.exists_dispatch_press? hpress hc
      have hidx := Nat.le_antisymm (hfirst d hd) (hleast c hc)
      rw [(List.idxOf_inj (Category.mem_all c)).1 hidx]
      exact .leads hdispatch
    | nothing _ hnone =>
      exact .nothing (List.find?_eq_none.2 fun c _ => mt (hbinds c).1 (hnone c))
  · intro h
    cases h with
    | @triggers c hc => exact .triggers hkey ((hbinds c).1 hc)
    | @misses c hc => exact .misses hkey (mt (hbinds c).2 hc)
    | @leads c hdispatch =>
      refine .first hkey ((hbinds c).1 (List.find?_some hdispatch)) ?_
      intro d hd
      exact Bindings.idxOf_le_of_dispatch hdispatch ((hbinds d).2 hd)
    | nothing hdispatch =>
      refine .nothing hkey ?_
      intro c hc
      exact List.find?_eq_none.1 hdispatch c (Category.mem_all c) ((hbinds c).2 hc)

/-- The line that is printed for a key tells the effect that holds. -/
theorem chordLine_eq_line_iff (hkey : Pattern.chord key = .ok chord) {colour : Bool} :
    chordLine colour b category? chord = e.line colour chord ↔ Holds b key chord category? e := by
  have hblank := Pattern.isBlank_eq_not_isConfigured hkey
  cases hconf : chord.isConfigured with
  | false =>
    obtain rfl : chord = .unconfigured := by
      cases chord with
      | unconfigured => rfl
      | _ => cases hconf
    have hskipped : chordLine colour b category? .unconfigured =
        line colour .unconfigured .skipped := rfl
    rw [hskipped, (line_injective colour .unconfigured).eq_iff]
    constructor
    · rintro rfl
      exact .skipped hblank
    · intro h
      cases h with
      | skipped => rfl
      | _ => contradiction
  | true =>
    obtain ⟨press, hpress⟩ := Chord.exists_press?_of_isConfigured hconf
    rw [hconf] at hblank
    rw [chordLine, hpress, pressLine_eq_line_iff (Chord.display_of_press? hpress),
      holds_iff_ofPress (by simp [hblank]) hpress]

theorem newline_not_mem_chordLine (hchord : chord.IsReadable) (colour : Bool) :
    '\n' ∉ chordLine colour b category? chord := by
  rw [chordLine]
  cases hpress : chord.press? with
  | none => exact newline_not_mem_line hchord colour .skipped
  | some press =>
    obtain ⟨e, he⟩ := exists_ofPress b press category?
    change '\n' ∉ pressLine colour b category? press
    rw [he.pressLine_eq (Chord.display_of_press? hpress)]
    exact newline_not_mem_line hchord colour e

end Effect

def Says (colour : Bool) (b : Bindings) (category? : Option Category) (key line : Text) : Prop :=
  ∃ chord, Pattern.chord key = .ok chord ∧
    ∀ e : Effect, line = e.line colour chord ↔ Effect.Holds b key chord category? e

/-- The keys up to the first one that stands for no chord. -/
def accepted (keys : List Text) : List Text := keys.takeWhile fun key => (Pattern.chord key).isOk

theorem accepted_cons_of_ok {key : Text} {chord : Chord} (h : Pattern.chord key = .ok chord)
    (keys : List Text) : accepted (key :: keys) = key :: accepted keys := by
  rw [accepted, List.takeWhile_cons_of_pos (by rw [h]; rfl), accepted]

theorem accepted_cons_of_error {key : Text} {cause : PatternError}
    (h : Pattern.chord key = .error cause) (keys : List Text) : accepted (key :: keys) = [] := by
  rw [accepted, List.takeWhile_cons_of_neg (by rw [h]; simp [Except.isOk, Except.toBool])]

section

variable {colour : Bool} {b : Bindings} {category? : Option Category}

theorem newline_not_mem_of_mem_testReport {keys : List Text} {line : Text}
    (h : line ∈ (testReport colour b category? keys).lines) : '\n' ∉ line := by
  induction keys with
  | nil => cases h
  | cons key keys ih =>
    rw [testReport] at h
    cases hkey : Pattern.chord key with
    | ok chord =>
      rw [hkey] at h
      rcases List.mem_cons.1 h with rfl | h
      · exact Effect.newline_not_mem_chordLine (Pattern.isReadable_of_chord hkey) colour
      · exact ih h
    | error cause =>
      rw [hkey] at h
      cases h

theorem forall₂_says_testReport (keys : List Text) :
    List.Forall₂ (Says colour b category?) (accepted keys)
      (testReport colour b category? keys).lines := by
  induction keys with
  | nil => exact .nil
  | cons key keys ih =>
    rw [testReport]
    cases hkey : Pattern.chord key with
    | ok chord =>
      rw [accepted_cons_of_ok hkey]
      exact .cons ⟨chord, hkey, fun e => Effect.chordLine_eq_line_iff hkey⟩ ih
    | error cause =>
      rw [accepted_cons_of_error hkey]
      exact .nil

theorem exitCode_testReport_eq_zero_iff {keys : List Text} :
    (testReport colour b category? keys).exitCode = 0 ↔
      ∀ key ∈ keys, ∃ chord, Pattern.chord key = .ok chord := by
  induction keys with
  | nil => exact iff_of_true rfl (by simp)
  | cons key keys ih =>
    rw [testReport, List.forall_mem_cons]
    cases hkey : Pattern.chord key with
    | ok chord => exact ih.trans (and_iff_right ⟨chord, rfl⟩).symm
    | error cause =>
      refine iff_of_false (by simp [Report.exitCode]) ?_
      rintro ⟨⟨chord, h⟩, -⟩
      cases h

end

namespace Request

structure Trial (request : Request) (colour : Bool) (category? : Option Category)
    (keys : List Text) (file : Config) (origin : Text) (report : Report) : Prop where
  /-- On bindings there is one line for each key up to the first that stands for no chord, and the
  exit code says whether there is such a key. -/
  tested {b} (hb : request.build file = .ok b) : ∃ body lines,
    report.output = origin ++ '\n' :: body ∧ Text.lines body = lines ++ [[]] ∧
      List.Forall₂ (Says colour b category?) (accepted keys) lines ∧
      (report.exitCode = 0 ↔ ∀ key ∈ keys, ∃ chord, Pattern.chord key = .ok chord)
  /-- Without bindings no key is tried. -/
  rejected {cause} (hb : request.build file = .error cause) :
    report.output = origin ++ ['\n'] ∧ report.exitCode = 1

variable {request : Request} {colour : Bool} {category? : Option Category} {keys : List Text}
  {file : Config} {origin : Text}

theorem trial_testReport {b : Bindings} (hb : request.build file = .ok b) :
    request.Trial colour category? keys file origin
      (.prepend origin (testReport colour b category? keys)) where
  tested := by
    intro b' hb'
    obtain rfl := Except.ok.inj (hb.symm.trans hb')
    have hsays : List.Forall₂ (Says colour b category?) (accepted keys)
        (testReport colour b category? keys).lines := forall₂_says_testReport keys
    exact ⟨(testReport colour b category? keys).output, _,
      by simp [Report.output, Report.prepend],
      Text.lines_flatMap_newline fun _ => newline_not_mem_of_mem_testReport, hsays,
      exitCode_testReport_eq_zero_iff⟩
  rejected := by
    intro cause hcause
    cases hb.symm.trans hcause

theorem trial_rejected {cause : BindingError} (hb : request.build file = .error cause) :
    request.Trial colour category? keys file origin
      { lines := [origin], failure? := some (.rejected cause) } where
  tested := by
    intro b hb'
    cases hb.symm.trans hb'
  rejected _ := ⟨by simp [Report.output], rfl⟩

theorem exists_trial_report (haction : request.action = .test category? keys)
    {surroundings : Surroundings} {t : FileTree} (hfile : request.Finds surroundings.home t file) :
    ∃ origin, sourceOf surroundings.colour request.config?.isSome (request.path surroundings.home)
        (ConfigFile.load t (request.path surroundings.home)) = .ok (origin, file) ∧
      request.Trial surroundings.colour category? keys file origin
        (request.report surroundings (ConfigFile.load t (request.path surroundings.home))) := by
  obtain ⟨origin, hsource⟩ :=
    (request.finds_iff_exists_sourceOf surroundings.home t file surroundings.colour).1 hfile
  refine ⟨origin, hsource, ?_⟩
  simp only [Request.report, hsource, haction]
  rw [← ofFun_effective, bindingsReport, ← build]
  cases hb : request.build file with
  | ok b => exact trial_testReport hb
  | error cause => exact trial_rejected hb

end Request

/-- Any keys can be tried. Behind the line about the configuration that is found, the output has one
line for each key up to the first that stands for no chord, in their order and with nothing behind
them, and the exit code is zero if and only if there is no such key. Where the patterns in force do
not make bindings, no key is tried and the exit code is one. -/
theorem trial_of_test (request : Request) {category? : Option Category} {keys : List Text}
    (haction : request.action = .test category? keys) :
    (keys ≠ [] → ∃ arguments, parse arguments = .ok (.request request)) ∧
      ∀ surroundings t file, request.Finds surroundings.home t file → ∃ origin report,
        sourceOf surroundings.colour request.config?.isSome (request.path surroundings.home)
          (ConfigFile.load t (request.path surroundings.home)) = .ok (origin, file) ∧
        request.run surroundings t = (report, t) ∧
        (∀ arguments, parse arguments = .ok (.request request) →
          run surroundings t arguments = .ok (report, t)) ∧
        request.Trial surroundings.colour category? keys file origin report := by
  refine ⟨exists_parse_eq_request_test haction, ?_⟩
  intro surroundings t file hfile
  obtain ⟨origin, hsource, htrial⟩ := request.exists_trial_report haction hfile
  have hrun : request.run surroundings t =
      (request.report surroundings (ConfigFile.load t (request.path surroundings.home)), t) := by
    rw [Request.run, haction]
  refine ⟨origin, _, hsource, hrun, ?_, htrial⟩
  intro arguments hparse
  rw [run, hparse, ← hrun]
  rfl

def triedKeys : List Text := ["", "Return", ",", "Hyper", "Tab"].map String.toList

theorem trial_of_test_triedKeys :
    ∃ request b origin report body lines,
      request.action = .test none triedKeys ∧
      parse (["test", "--insert-newline=Enter", "--"].map String.toList ++ triedKeys) =
        .ok (.request request) ∧
      request.build Config.empty = .ok b ∧
      run ⟨"home".toList, false⟩ {}
          (["test", "--insert-newline=Enter", "--"].map String.toList ++ triedKeys) =
        .ok (report, {}) ∧
      report.output = origin ++ '\n' :: body ∧ Text.lines body = lines ++ [[]] ∧
      List.Forall₂ (Says false b none) (triedKeys.take 3) lines ∧ report.exitCode ≠ 0 := by
  let request : Request :=
    { overrides := { Config.empty with insertNewline := ["Enter".toList] }
      action := .test none triedKeys }
  have hparse : parse (["test", "--insert-newline=Enter", "--"].map String.toList ++ triedKeys) =
      .ok (.request request) := by
    cbv
  have hfile : request.Finds "home".toList {} Config.empty := .missing rfl rfl
  have hbuild : request.build Config.empty =
      .ok { Bindings.default with insertNewline := [.named .enter {}] } := by
    decide +kernel
  obtain ⟨origin, report, -, -, hrun, htrial⟩ :=
    (trial_of_test request rfl).2 ⟨"home".toList, false⟩ {} Config.empty hfile
  obtain ⟨body, lines, houtput, hbody, hsays, hexit⟩ := htrial.tested hbuild
  have haccepted : accepted triedKeys = triedKeys.take 3 := by decide +kernel
  have hhyper : ∃ cause, Pattern.chord "Hyper".toList = .error cause := ⟨_, rfl⟩
  rw [haccepted] at hsays
  refine ⟨request, _, origin, report, body, lines, rfl, hparse, hbuild, hrun _ hparse, houtput,
    hbody, hsays, ?_⟩
  intro hzero
  obtain ⟨chord, hchord⟩ := hexit.1 hzero "Hyper".toList (by decide)
  obtain ⟨cause, hcause⟩ := hhyper
  cases hchord.symm.trans hcause

end Command

end Keymap

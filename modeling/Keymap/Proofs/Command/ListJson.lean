import Keymap.Proofs.Command.Overrides

/-! # Bindings listed in JSON

The listing in JSON is a document that reads back as the bindings, and it is not all that
the command prints: a line in front of it says where the configuration is from. Main
statement: what follows this line is the document, and the whole output is none.
-/
namespace Keymap

namespace Json

/-- No token starts with the character, and it is not white space. -/
def StartsNothing (c : Char) : Prop :=
  ¬ isBlank c ∧ ∀ rest, scanToken c rest = (.broken .malformed .malformed, [])

theorem parseConfig_of_startsNothing {c : Char} (h : StartsNothing c) (s : Text) :
    parseConfig (c :: s) = .error .malformed := by
  rw [parseConfig, readWhole, tokens_cons, if_neg h.1, h.2]
  rfl

end Json

namespace Command

def arrow (colour : Bool) : Text := Text.styled colour .cyan "→".toList

theorem exists_arrow_eq_cons (colour : Bool) :
    ∃ c s, arrow colour = c :: s ∧ Json.StartsNothing c := by
  cases colour
  · exact ⟨'→', [], rfl, by decide, fun _ => rfl⟩
  · exact ⟨'\x1b', _, rfl, by decide, fun _ => rfl⟩

theorem Request.Finds.exists_sourceOf {request : Request} {home : Text} {t : FileTree}
    {file : Config} (h : request.Finds home t file) (colour : Bool) :
    ∃ origin, sourceOf colour request.config?.isSome (request.path home)
        (ConfigFile.load t (request.path home)) = .ok (arrow colour ++ origin, file) := by
  cases h with
  | loaded h =>
    refine ⟨" Loaded config: ".toList ++ request.path home, ?_⟩
    rw [h, ← List.append_assoc]
    rfl
  | missing hdefault h =>
    refine ⟨" No config at ".toList ++ (request.path home ++ ", using defaults".toList), ?_⟩
    rw [ConfigFile.load_eq_notFound_iff.2 ⟨h, rfl⟩, hdefault, ← List.append_assoc,
      ← List.append_assoc]
    rfl

section

variable {arguments : List Text} {request : Request} {surroundings : Surroundings} {t : FileTree}
  {file : Config} {b : Bindings}

/-- The report on a listing in JSON: two lines, of which the second one may itself be set in
several. -/
theorem exists_run_list_json (hparse : parse arguments = .ok (.request request))
    (haction : request.action = .list true) (hfile : request.Finds surroundings.home t file)
    (hb : request.build file = .ok b) :
    ∃ origin, run surroundings t arguments =
      .ok ({ lines := [arrow surroundings.colour ++ origin, Json.pretty b.patterns] }, t) := by
  obtain ⟨origin, hsource⟩ := hfile.exists_sourceOf surroundings.colour
  rw [Request.build, Request.ofFun_effective] at hb
  have hreport : request.run surroundings t =
      ({ lines := [arrow surroundings.colour ++ origin, Json.pretty b.patterns] }, t) := by
    rw [Request.run, haction]
    simp only [Request.report, hsource, bindingsReport, hb, haction]
    rfl
  refine ⟨origin, ?_⟩
  rw [run, hparse, ← hreport]
  rfl

/-- No output that starts with the arrow is a document. -/
theorem parseConfig_output {report : Report} {colour : Bool} {origin : Text} {lines : List Text}
    (h : report.lines = (arrow colour ++ origin) :: lines) :
    Json.parseConfig report.output = .error .malformed := by
  obtain ⟨c, s, hcons, hc⟩ := exists_arrow_eq_cons colour
  rw [Report.output, h, List.flatMap_cons, hcons]
  exact Json.parseConfig_of_startsNothing hc _

/-- The listing in JSON is a line about the origin of the configuration and a document behind it,
from which the bindings can be built again. With the line in front of it, it is no document. -/
theorem run_list_json (hparse : parse arguments = .ok (.request request))
    (haction : request.action = .list true) (hfile : request.Finds surroundings.home t file)
    (hb : request.build file = .ok b) :
    ∃ report origin, run surroundings t arguments = .ok (report, t) ∧ report.failure? = none ∧
      report.output = arrow surroundings.colour ++ origin ++
        '\n' :: (Json.pretty b.patterns ++ ['\n']) ∧
      (∃ raw, Json.parseConfig (Json.pretty b.patterns ++ ['\n']) = .ok raw ∧
        Bindings.build raw = .ok b) ∧
      Json.parseConfig report.output = .error .malformed := by
  obtain ⟨origin, hrun⟩ := exists_run_list_json hparse haction hfile hb
  refine ⟨_, origin, hrun, rfl, ?_, ?_, parseConfig_output rfl⟩
  · simp [Report.output]
  · exact ⟨b.patterns, Json.parseConfig_pretty_newline _, Bindings.build_patterns (.built hb)⟩

end

def exampleTree : FileTree :=
  { entries := [(["keys.conf".toList], .file (Text.encode "submit-input = F5\n".toList))] }

def exampleArguments : List Text :=
  ["list", "-ckeys.conf", "--json", "--insert-newline=Enter"].map String.toList

theorem run_list_json_example :
    ∃ request file b, parse exampleArguments = .ok (.request request) ∧
      request.action = .list true ∧ request.Finds [] exampleTree file ∧
      request.build file = .ok b ∧
      ∃ report origin, run ⟨[], false⟩ exampleTree exampleArguments = .ok (report, exampleTree) ∧
        report.failure? = none ∧
        report.output = arrow false ++ origin ++ '\n' :: (Json.pretty b.patterns ++ ['\n']) ∧
        (∃ raw, Json.parseConfig (Json.pretty b.patterns ++ ['\n']) = .ok raw ∧
          Bindings.build raw = .ok b) ∧
        Json.parseConfig report.output = .error .malformed := by
  let request : Request :=
    { config? := some "keys.conf".toList
      overrides := { Config.empty with insertNewline := ["Enter".toList] }
      action := .list true }
  have hparse : parse exampleArguments = .ok (.request request) := by cbv
  have hload : ConfigFile.load exampleTree "keys.conf".toList =
      .ok { Config.empty with submitInput := ["F5".toList] } := by
    have hread : exampleTree.read "keys.conf".toList =
        .content (Text.encode "submit-input = F5\n".toList) := rfl
    rw [ConfigFile.load, hread, ConfigFile.ofReading, Text.decode?_encode]
    rfl
  have hbuild : request.build { Config.empty with submitInput := ["F5".toList] } =
      .ok { Bindings.default with
        insertNewline := [.named .enter {}]
        submitInput := [.named (.function 5) {}] } := by
    decide +kernel
  exact ⟨request, _, _, hparse, rfl, .loaded hload, hbuild,
    run_list_json hparse rfl (.loaded hload) hbuild⟩

/-- Without any file, the listing of the default bindings in JSON succeeds and cannot be read as
JSON. -/
theorem output_list_json_malformed :
    ∃ report, run ⟨"home".toList, false⟩ {} (["list", "--json"].map String.toList) =
        .ok (report, {}) ∧
      report.failure? = none ∧ Json.parseConfig report.output = .error .malformed := by
  have hparse : parse (["list", "--json"].map String.toList) =
      .ok (.request { action := .list true }) := by
    cbv
  have hfile : Request.Finds { action := .list true } "home".toList {} Config.empty :=
    .missing rfl rfl
  have hrun : ∃ origin, run ⟨"home".toList, false⟩ {} (["list", "--json"].map String.toList) =
      .ok ({ lines := [arrow false ++ origin, Json.pretty Bindings.default.patterns] }, {}) :=
    exists_run_list_json hparse rfl hfile rfl
  obtain ⟨origin, hrun⟩ := hrun
  exact ⟨_, hrun, rfl, parseConfig_output rfl⟩

end Command

end Keymap

import Keymap.Command.Arguments
import Keymap.ConfigFile.Basic
import Keymap.Proofs.Bindings.Outcome
import Keymap.Proofs.Text.Trim

/-! # Requests in writing

An option can be written in several forms and places. One of them is enough for every
request: its long form, before the command. Main statement: whatever file and overrides a
request to inspect the bindings has, some arguments ask for it.
-/
namespace Keymap

namespace Config

theorem get_push (config : Config) (c d : Category) (pattern : Text) :
    (config.push c pattern).get d = config.get d ++ if c = d then [pattern] else [] := by
  rw [push, ByCategory.modify, ByCategory.get_set]
  by_cases h : c = d
  · rw [if_pos h.symm, if_pos h, h]
  · rw [if_neg (Ne.symm h), if_neg h, List.append_nil]

/-- Entries that are taken in one by one stand behind those that are there, in their order. -/
theorem get_foldl_push (entries : List (Category × Text)) (config : Config) (c : Category) :
    (entries.foldl (fun config entry => config.push entry.1 entry.2) config).get c =
      config.get c ++ (ofEntries entries).get c := by
  induction entries generalizing config with
  | nil => simp [ofEntries]
  | cons entry entries ih =>
    rw [List.foldl_cons, ih, get_push, List.append_assoc]
    by_cases h : entry.1 = c <;> simp [ofEntries, h]

theorem ofEntries_entries (config : Config) : ofEntries config.entries = config := by
  apply ByCategory.ext_get
  intro c
  cases c <;>
    simp [ofEntries, entries, Category.all, List.filter_map, Function.comp_def, beq_eq_decide]

theorem foldl_push_entries (config : Config) :
    config.entries.foldl (fun config entry => config.push entry.1 entry.2) empty = config := by
  apply ByCategory.ext_get
  intro c
  rw [get_foldl_push, ofEntries_entries, empty, ByCategory.get_ofFun, List.nil_append]

theorem override_empty (config : Config) : config.override empty = config := by
  apply ByCategory.ext_get
  intro c
  simp [override, empty]

end Config

namespace Command

inductive Action.Inspects : Action → Prop
  | check : Inspects .check
  | list {json} : Inspects (.list json)

/-- An option in its long form, with its value behind an equals sign. -/
def longArgument (name value : Text) : Text := '-' :: '-' :: (name ++ '=' :: value)

def Request.options (request : Request) : List Text :=
  (request.config?.map (longArgument "config".toList)).toList ++
    request.overrides.entries.map fun entry => longArgument entry.1.name entry.2

theorem longOption?_name (c : Category) : longOption? none c.name = some (.inr (.override c)) := by
  cases c <;> rfl

theorem equals_not_mem_name (c : Category) : '=' ∉ c.name := by
  cases c <;> decide

namespace State

theorem take_longArgument (level : Level) {name value : Text} {option : Valued}
    (hname : '=' ∉ name) (hoption : longOption? none name = some (.inr option)) :
    take { level } (longArgument name value) =
      (level.setValue option value).map fun level => some { level } := by
  have hrun := Text.run_append_cons hname value
  have hlong : take { level } (longArgument name value) =
      takeLong { level } (name ++ '=' :: value) := by
    cases name <;> rfl
  rw [hlong, takeLong, hrun.takeWhile_eq, hrun.dropWhile_eq]
  simp only [hoption]
  rw [give]
  cases level.setValue option value <;> rfl

/-- Overrides add up on the level on which they are given. -/
theorem takeAll_overrides (level : Level) (entries : List (Category × Text)) (rest : List Text) :
    takeAll { level } (entries.map (fun entry => longArgument entry.1.name entry.2) ++ rest) =
      takeAll
        { level :=
            { level with
              overrides := entries.foldl (fun overrides entry => overrides.push entry.1 entry.2)
                level.overrides } } rest := by
  induction entries generalizing level with
  | nil => rfl
  | cons entry entries ih =>
    rw [List.map_cons, List.cons_append, takeAll,
      take_longArgument level (equals_not_mem_name entry.1) (longOption?_name entry.1)]
    exact ih { level with overrides := level.overrides.push entry.1 entry.2 }

theorem takeAll_config (config? : Option Text) (rest : List Text) :
    takeAll {} ((config?.map (longArgument "config".toList)).toList ++ rest) =
      takeAll { level := { config? } } rest := by
  cases config? with
  | none => rfl
  | some path =>
    rw [Option.map_some, Option.toList_some, List.singleton_append, takeAll,
      take_longArgument {} (by decide) rfl]
    rfl

end State

theorem parse_options_append (request : Request) (rest : List Text) :
    parse (request.options ++ rest) =
      State.takeAll
        { level := { config? := request.config?, overrides := request.overrides } } rest := by
  rw [parse, Request.options, List.append_assoc, State.takeAll_config, State.takeAll_overrides,
    Config.foldl_push_entries]

/-- A request to inspect the bindings can be made with any file and any overrides. -/
theorem exists_parse_eq_request {request : Request} (haction : request.action.Inspects) :
    ∃ arguments, parse arguments = .ok (.request request) := by
  obtain ⟨config?, overrides, action⟩ := request
  have hcommand : ∃ words, State.takeAll { level := { config?, overrides } } words =
      .ok (.request ⟨config?, overrides.override Config.empty, action⟩) := by
    cases haction with
    | check => exact ⟨["check".toList], rfl⟩
    | @list json =>
      cases json with
      | false => exact ⟨["list".toList], rfl⟩
      | true => exact ⟨["list".toList, "--json".toList], rfl⟩
  obtain ⟨words, hwords⟩ := hcommand
  rw [Config.override_empty] at hwords
  exact ⟨Request.options ⟨config?, overrides, action⟩ ++ words,
    (parse_options_append _ _).trans hwords⟩

def State.addKeys (s : State) (keys : List Text) : State :=
  { s with level := { s.level with keys := s.level.keys ++ keys } }

theorem State.take_key {s : State} (hcommand : s.command? = some .test) (honly : s.onlyKeys = true)
    (key : Text) : s.take key = .ok (some (s.addKeys [key])) := by
  obtain ⟨command?, outer, level, waiting?, onlyKeys⟩ := s
  obtain rfl := hcommand
  obtain rfl := honly
  rfl

/-- Behind two hyphens everything is a key. -/
theorem State.takeAll_keys {s : State} (hcommand : s.command? = some .test)
    (honly : s.onlyKeys = true) (keys : List Text) :
    s.takeAll keys = (s.addKeys keys).request.map .request := by
  induction keys generalizing s with
  | nil => rw [addKeys, List.append_nil, takeAll]
  | cons key keys ih =>
    have hrest : (s.addKeys [key]).addKeys keys = s.addKeys (key :: keys) := by
      simp [addKeys]
    rw [takeAll, State.take_key hcommand honly, ← hrest]
    exact ih hcommand honly

/-- Any keys can be tried, with any file and any overrides and for any category or for all. -/
theorem exists_parse_eq_request_test {request : Request} {category? : Option Category}
    {keys : List Text} (haction : request.action = .test category? keys) (hkeys : keys ≠ []) :
    ∃ arguments, parse arguments = .ok (.request request) := by
  obtain ⟨config?, overrides, action⟩ := request
  obtain rfl : action = .test category? keys := haction
  let chosen := (category?.map fun c => longArgument "category".toList c.name).toList
  let trying : State :=
    { command? := some .test
      outer := { config?, overrides }
      level := { category? }
      onlyKeys := true }
  have hwords : State.takeAll { level := { config?, overrides } }
      ("test".toList :: (chosen ++ "--".toList :: keys)) = trying.takeAll keys := by
    cases category? with
    | none => rfl
    | some c => cases c <;> rfl
  have hrequest : (trying.addKeys keys).request.map Invocation.request =
      .ok (.request ⟨config?, overrides.override Config.empty, .test category? keys⟩) := by
    cases keys with
    | nil => exact absurd rfl hkeys
    | cons key keys => rfl
  rw [Config.override_empty] at hrequest
  exact ⟨Request.options ⟨config?, overrides, .test category? keys⟩ ++ _,
    (parse_options_append _ _).trans
      (hwords.trans ((State.takeAll_keys rfl rfl keys).trans hrequest))⟩

end Command

end Keymap

import Keymap.Proofs.ConfigFile.Variables

/-! # What a configuration file says

The meaning of a file is said of its lines, with the variables fixed beforehand by
the last definitions of the whole file. A file with a bad line is refused for the
first of them; another one gives each category its values in the order of the
lines. Main statement: reading a file decides this meaning.
-/
namespace Keymap.ConfigFile

open Assignment (Reads IsAssignment)
open Variables (LastDefinition Substituted FirstUndefined ofLines)

def Silent (line : Text) : Prop :=
  (∀ c ∈ line, Text.isBlank c) ∨ ∃ rest, Text.trim line = '#' :: rest

def Entry (line : Text) : Prop := ¬ Silent line ∧ ∀ rest, Text.trim line ≠ '$' :: rest

def Assigns (line : Text) (c : Category) (value : Text) : Prop :=
  Entry line ∧ ∃ name, Reads (Text.trim line) (.ok ⟨name, value⟩) ∧ Category.Spelled name c

def Dangling (lines : List Text) (value : Text) : Prop :=
  ∃ pieces name, Piece.Pieces value pieces ∧ .reference name ∈ pieces ∧
    ∀ v, ¬ LastDefinition lines name v

/-- The line is no well-formed definition, or it is an entry with one of three faults. -/
def Bad (lines : List Text) (line : Text) : Prop :=
  (∃ rest, Text.trim line = '$' :: rest ∧ ¬ IsAssignment rest) ∨
    (Entry line ∧ (¬ IsAssignment (Text.trim line) ∨
      ∃ a, Reads (Text.trim line) (.ok a) ∧
        ((∀ c, ¬ Category.Spelled a.name c) ∨ Dangling lines a.value)))

/-- The fault of a bad line: its form comes first, then its category, then its references. -/
inductive Fault (lines : List Text) (number : Nat) (line : Text) : ConfigError → Prop
  | definition {rest cause} (h : Text.trim line = '$' :: rest) (hr : Reads rest (.error cause)) :
      Fault lines number line (.malformedLine number .variable cause)
  | assignment {cause} (h : Entry line) (hr : Reads (Text.trim line) (.error cause)) :
      Fault lines number line (.malformedLine number .assignment cause)
  | category {a} (h : Entry line) (hr : Reads (Text.trim line) (.ok a))
      (hc : ∀ c, ¬ Category.Spelled a.name c) :
      Fault lines number line (.unknownCategory number a.name)
  | reference {c value name} (h : Assigns line c value)
      (hn : FirstUndefined lines value name) :
      Fault lines number line (.undefinedVariable number name)

inductive Adds (lines : List Text) (line : Text) : Option (Category × Text) → Prop
  | silent (h : Silent line) : Adds lines line none
  | definition {rest a} (h : Text.trim line = '$' :: rest) (hr : Reads rest (.ok a)) :
      Adds lines line none
  | entry {c value pattern} (h : Assigns line c value) (hp : Substituted lines value pattern) :
      Adds lines line (some (c, pattern))

/-- The patterns that the category gets from some of the lines, in their order. -/
inductive Patterns (lines : List Text) (c : Category) : List Text → List Text → Prop
  | nil : Patterns lines c [] []
  | assigned {line value pattern rest ps} (h : Assigns line c value)
      (hp : Substituted lines value pattern) (hps : Patterns lines c rest ps) :
      Patterns lines c (line :: rest) (pattern :: ps)
  | other {line rest ps} (h : ∀ value, ¬ Assigns line c value) (hps : Patterns lines c rest ps) :
      Patterns lines c (line :: rest) ps

/-- What a file says: the fault of its first bad line, or its patterns. Lines are counted from
one. -/
inductive Outcome (content : Text) : Except ConfigError Config → Prop
  | rejected {before line after e} (h : Text.lines content = before ++ line :: after)
      (hbefore : ∀ l ∈ before, ¬ Bad (Text.lines content) l)
      (hline : Bad (Text.lines content) line)
      (hfault : Fault (Text.lines content) (before.length + 1) line e) : Outcome content (.error e)
  | accepted {config : Config}
      (h : ∀ l ∈ Text.lines content, ¬ Bad (Text.lines content) l)
      (hp : ∀ c, Patterns (Text.lines content) c (Text.lines content) (config.get c)) :
      Outcome content (.ok config)

theorem reads_unique {s : Text} {r r' : Except LineError Assignment} (h : Reads s r)
    (h' : Reads s r') : r = r' := h.ofText_eq.symm.trans h'.ofText_eq

/-- A line assigns to one category and one value at most. -/
theorem Assigns.unique {line value value' : Text} {c d : Category} (h : Assigns line c value)
    (h' : Assigns line d value') : c = d ∧ value = value' := by
  obtain ⟨-, name, hr, hc⟩ := h
  obtain ⟨-, name', hr', hd⟩ := h'
  have ha := Except.ok.inj (reads_unique hr hr')
  obtain ⟨rfl, rfl⟩ := Assignment.mk.inj ha
  exact ⟨hc.unique hd, rfl⟩

theorem Silent.lineEntry_eq {vars : Variables} {number : Nat} {line : Text} (h : Silent line) :
    lineEntry vars number line = .ok none := by
  rw [lineEntry]
  rcases h with hblank | ⟨rest, hrest⟩
  · rw [(Text.trim_eq_nil_iff line).2 hblank]
  · rw [hrest]
    rfl

theorem lineEntry_of_definition {vars : Variables} {number : Nat} {line rest : Text}
    (h : Text.trim line = '$' :: rest) : lineEntry vars number line =
      match Assignment.ofText rest with
      | .ok _ => .ok none
      | .error cause => .error (.malformedLine number .variable cause) := by
  rw [lineEntry, h]
  rfl

theorem Entry.lineEntry_eq {vars : Variables} {number : Nat} {line : Text} (h : Entry line) :
    lineEntry vars number line =
      match Assignment.ofText (Text.trim line) with
      | .error cause => .error (.malformedLine number .assignment cause)
      | .ok assignment =>
        match Category.ofName? assignment.name with
        | none => .error (.unknownCategory number assignment.name)
        | some c =>
          match vars.substitute assignment.value with
          | .error name => .error (.undefinedVariable number name)
          | .ok pattern => .ok (some (c, pattern)) := by
  obtain ⟨hsilent, hdollar⟩ := h
  rw [lineEntry]
  split
  · rename_i hnil
    exact absurd (Or.inl ((Text.trim_eq_nil_iff line).1 hnil)) hsilent
  · rename_i rest hrest
    exact absurd (Or.inr ⟨rest, hrest⟩) hsilent
  · rename_i rest hrest
    exact absurd hrest (hdollar rest)
  · rfl

theorem Adds.lineEntry_eq {lines : List Text} {number : Nat} {line : Text}
    {x : Option (Category × Text)} (h : Adds lines line x) :
    lineEntry (ofLines lines) number line = .ok x := by
  cases h with
  | silent h => exact h.lineEntry_eq
  | definition h hr => rw [lineEntry_of_definition h, hr.ofText_eq]
  | entry h hp =>
    obtain ⟨hentry, name, hr, hc⟩ := h
    rw [hentry.lineEntry_eq, hr.ofText_eq]
    dsimp only
    rw [(Category.ofName?_eq_some_iff hr.trim_name).2 hc]
    dsimp only
    rw [Variables.substitute_eq_ok_iff.2 hp]

theorem Fault.lineEntry_eq {lines : List Text} {number : Nat} {line : Text} {e : ConfigError}
    (h : Fault lines number line e) : lineEntry (ofLines lines) number line = .error e := by
  cases h with
  | definition h hr => rw [lineEntry_of_definition h, hr.ofText_eq]
  | assignment h hr => rw [h.lineEntry_eq, hr.ofText_eq]
  | category h hr hc =>
    rw [h.lineEntry_eq, hr.ofText_eq]
    dsimp only
    rw [(Category.ofName?_eq_none_iff hr.trim_name).2 hc]
  | reference h hn =>
    obtain ⟨hentry, name, hr, hc⟩ := h
    rw [hentry.lineEntry_eq, hr.ofText_eq]
    dsimp only
    rw [(Category.ofName?_eq_some_iff hr.trim_name).2 hc]
    dsimp only
    rw [Variables.substitute_eq_error_iff.2 hn]

/-- Each line adds something or has a fault. -/
theorem exists_adds_or_fault (lines : List Text) (number : Nat) (line : Text) :
    (∃ x, Adds lines line x) ∨ ∃ e, Fault lines number line e := by
  by_cases hsilent : Silent line
  · exact Or.inl ⟨none, .silent hsilent⟩
  by_cases hdollar : ∃ rest, Text.trim line = '$' :: rest
  · obtain ⟨rest, hrest⟩ := hdollar
    obtain ⟨r, hr⟩ := Assignment.exists_reads rest
    cases r with
    | error cause => exact Or.inr ⟨_, .definition hrest hr⟩
    | ok a => exact Or.inl ⟨none, .definition hrest hr⟩
  have hentry : Entry line := ⟨hsilent, fun rest hrest => hdollar ⟨rest, hrest⟩⟩
  obtain ⟨r, hr⟩ := Assignment.exists_reads (Text.trim line)
  cases r with
  | error cause => exact Or.inr ⟨_, .assignment hentry hr⟩
  | ok a =>
    by_cases hname : ∃ c, Category.Spelled a.name c
    · obtain ⟨c, hc⟩ := hname
      have hassigns : Assigns line c a.value := ⟨hentry, a.name, hr, hc⟩
      cases hs : (ofLines lines).substitute a.value with
      | error name =>
        exact Or.inr ⟨_, .reference hassigns (Variables.substitute_eq_error_iff.1 hs)⟩
      | ok pattern =>
        exact Or.inl ⟨_, .entry hassigns (Variables.substitute_eq_ok_iff.1 hs)⟩
    · exact Or.inr ⟨_, .category hentry hr (not_exists.1 hname)⟩

theorem lineEntry_eq_ok_iff {lines : List Text} {number : Nat} {line : Text}
    {x : Option (Category × Text)} :
    lineEntry (ofLines lines) number line = .ok x ↔ Adds lines line x := by
  constructor
  · intro h
    rcases exists_adds_or_fault lines number line with ⟨y, hy⟩ | ⟨e, he⟩
    · rw [hy.lineEntry_eq] at h
      rw [← Except.ok.inj h]
      exact hy
    · rw [he.lineEntry_eq] at h
      cases h
  · exact Adds.lineEntry_eq

theorem lineEntry_eq_error_iff {lines : List Text} {number : Nat} {line : Text}
    {e : ConfigError} :
    lineEntry (ofLines lines) number line = .error e ↔ Fault lines number line e := by
  constructor
  · intro h
    rcases exists_adds_or_fault lines number line with ⟨y, hy⟩ | ⟨e', he⟩
    · rw [hy.lineEntry_eq] at h
      cases h
    · rw [he.lineEntry_eq] at h
      rw [← Except.error.inj h]
      exact he
  · exact Fault.lineEntry_eq

/-- A value cannot be substituted exactly if one of its references is undefined. -/
theorem dangling_iff {lines : List Text} {value : Text} :
    Dangling lines value ↔ ∃ name, FirstUndefined lines value name := by
  constructor
  · rintro ⟨pieces, name, hpieces, hname, hundefined⟩
    cases hs : (ofLines lines).substitute value with
    | error other => exact ⟨other, Variables.substitute_eq_error_iff.1 hs⟩
    | ok pattern =>
      obtain ⟨pieces', texts, hpieces', htexts, -⟩ := Variables.substitute_eq_ok_iff.1 hs
      rw [← hpieces.ofText_eq, hpieces'.ofText_eq] at hname
      obtain ⟨t, -, ht⟩ := Traversal.exists_mem_of_forall₂ htexts hname
      cases ht with
      | reference h => exact absurd h (hundefined t)
  · rintro ⟨name, before, after, hpieces, -, hundefined⟩
    exact ⟨_, name, hpieces, by simp, hundefined⟩

theorem Fault.bad {lines : List Text} {number : Nat} {line : Text} {e : ConfigError}
    (h : Fault lines number line e) : Bad lines line := by
  cases h with
  | @definition rest cause h hr =>
    refine Or.inl ⟨rest, h, ?_⟩
    intro hform
    obtain ⟨a, ha⟩ := Assignment.exists_reads_ok_iff.2 hform
    cases reads_unique hr ha
  | assignment h hr =>
    refine Or.inr ⟨h, Or.inl ?_⟩
    intro hform
    obtain ⟨a, ha⟩ := Assignment.exists_reads_ok_iff.2 hform
    cases reads_unique hr ha
  | @category a h hr hc => exact Or.inr ⟨h, Or.inr ⟨a, hr, Or.inl hc⟩⟩
  | @reference c value name h hn =>
    obtain ⟨hentry, name', hr, -⟩ := h
    exact Or.inr ⟨hentry, Or.inr ⟨⟨name', value⟩, hr, Or.inr (dangling_iff.2 ⟨name, hn⟩)⟩⟩

theorem Adds.not_bad {lines : List Text} {line : Text} {x : Option (Category × Text)}
    (h : Adds lines line x) : ¬ Bad lines line := by
  rintro (⟨rest, hdollar, hbad⟩ | ⟨hentry, hbad⟩)
  · cases h with
    | silent h =>
      rcases h with hblank | ⟨rest', hrest'⟩
      · rw [(Text.trim_eq_nil_iff line).2 hblank] at hdollar
        cases hdollar
      · rw [hrest'] at hdollar
        cases hdollar
    | definition hrest hr =>
      obtain ⟨-, rfl⟩ := List.cons.inj (hrest.symm.trans hdollar)
      exact hbad (Assignment.exists_reads_ok_iff.1 ⟨_, hr⟩)
    | entry h _ => exact h.1.2 rest hdollar
  · cases h with
    | silent h => exact hentry.1 h
    | definition hrest _ => exact hentry.2 _ hrest
    | @entry c value pattern h hp =>
      obtain ⟨-, name, hr, hc⟩ := h
      rcases hbad with hform | ⟨a, ha, hname | hdangling⟩
      · exact hform (Assignment.exists_reads_ok_iff.1 ⟨_, hr⟩)
      · obtain rfl := Except.ok.inj (reads_unique hr ha)
        exact hname c hc
      · obtain rfl := Except.ok.inj (reads_unique hr ha)
        obtain ⟨undefined, hn⟩ := dangling_iff.1 hdangling
        have hok := Variables.substitute_eq_ok_iff.2 hp
        rw [Variables.substitute_eq_error_iff.2 hn] at hok
        cases hok

theorem exists_adds_iff {lines : List Text} {line : Text} :
    (∃ x, Adds lines line x) ↔ ¬ Bad lines line := by
  constructor
  · rintro ⟨x, hx⟩
    exact hx.not_bad
  · intro h
    rcases exists_adds_or_fault lines 0 line with hx | ⟨e, he⟩
    · exact hx
    · exact absurd he.bad h

/-- Where no line fails its number does not matter. -/
theorem forall₂_zipIdx_iff {lines ls : List Text} {found : List (Option (Category × Text))}
    {k : Nat} :
    List.Forall₂ (fun numbered x =>
        lineEntry (ofLines lines) numbered.2 numbered.1 = .ok x) (ls.zipIdx k) found ↔
      List.Forall₂ (Adds lines) ls found := by
  simp only [lineEntry_eq_ok_iff]
  induction ls generalizing found k with
  | nil => rw [List.zipIdx_nil, List.forall₂_nil_left_iff, List.forall₂_nil_left_iff]
  | cons line ls ih =>
    rw [List.zipIdx_cons, List.forall₂_cons_left_iff, List.forall₂_cons_left_iff]
    simp only [ih]

theorem get_ofEntries_cons (entry : Category × Text) (entries : List (Category × Text))
    (c : Category) : (Config.ofEntries (entry :: entries)).get c =
      if entry.1 = c then entry.2 :: (Config.ofEntries entries).get c
      else (Config.ofEntries entries).get c := by
  rw [Config.ofEntries, Config.ofEntries, ByCategory.get_ofFun, ByCategory.get_ofFun]
  by_cases h : entry.1 = c
  · rw [if_pos h, List.filter_cons_of_pos (by simpa using h), List.map_cons]
  · rw [if_neg h, List.filter_cons_of_neg (by simpa using h)]

theorem patterns_of_adds {lines ls : List Text} {found : List (Option (Category × Text))}
    (h : List.Forall₂ (Adds lines) ls found) (c : Category) :
    Patterns lines c ls ((Config.ofEntries (found.filterMap id)).get c) := by
  induction h with
  | nil =>
    rw [Config.ofEntries, ByCategory.get_ofFun]
    exact .nil
  | @cons line x ls found hline _ ih =>
    cases hline with
    | silent h => exact .other (fun _ hv => hv.1.1 h) ih
    | definition hrest _ => exact .other (fun _ hv => hv.1.2 _ hrest) ih
    | @entry d value pattern h hp =>
      rw [List.filterMap_cons_some (f := id) rfl, get_ofEntries_cons]
      by_cases hd : d = c
      · subst hd
        rw [if_pos rfl]
        exact .assigned h hp ih
      · rw [if_neg hd]
        exact .other (fun _ hv => hd (h.unique hv).1) ih

theorem Patterns.unique {lines ls ps qs : List Text} {c : Category} (h : Patterns lines c ls ps)
    (h' : Patterns lines c ls qs) : ps = qs := by
  induction h generalizing qs with
  | nil =>
    cases h'
    rfl
  | assigned h hp _ ih =>
    cases h' with
    | assigned h' hp' hps' =>
      obtain ⟨-, rfl⟩ := h.unique h'
      have hpattern := Variables.substitute_eq_ok_iff.2 hp
      rw [Variables.substitute_eq_ok_iff.2 hp'] at hpattern
      rw [← Except.ok.inj hpattern, ih hps']
    | other h' _ => exact absurd h (h' _)
  | other h _ ih =>
    cases h' with
    | assigned h' _ _ => exact absurd h' (h _)
    | other _ hps' => exact ih hps'

theorem parse_eq_ok_iff {content : Text} {config : Config} : parse content = .ok config ↔
    ∃ found, List.Forall₂ (Adds (Text.lines content)) (Text.lines content) found ∧
      Config.ofEntries (found.filterMap id) = config := by
  rw [parse, entries, Traversal.bind_pure, Variables.ofFile_eq_ofLines]
  simp only [Traversal.map_eq_ok_iff, Traversal.mapM_eq_ok_iff, forall₂_zipIdx_iff]
  constructor
  · rintro ⟨_, ⟨found, hfound, rfl⟩, hconfig⟩
    exact ⟨found, hfound, hconfig⟩
  · rintro ⟨found, hfound, hconfig⟩
    exact ⟨_, ⟨found, hfound, rfl⟩, hconfig⟩

theorem parse_eq_error_iff {content : Text} {e : ConfigError} : parse content = .error e ↔
    ∃ before line after, Text.lines content = before ++ line :: after ∧
      (∀ l ∈ before, ¬ Bad (Text.lines content) l) ∧
      Fault (Text.lines content) (before.length + 1) line e := by
  rw [parse, entries, Traversal.bind_pure, Variables.ofFile_eq_ofLines]
  simp only [Traversal.map_eq_error_iff, Traversal.mapM_eq_error_iff, lineEntry_eq_ok_iff,
    lineEntry_eq_error_iff, exists_adds_iff]
  constructor
  · rintro ⟨_, ⟨line, n⟩, _, hsplit, hbefore, hfault⟩
    obtain ⟨before, rest, hlines, rfl, hrest⟩ := List.zipIdx_eq_append_iff.1 hsplit
    obtain ⟨_, after, rfl, heq, -⟩ := List.zipIdx_eq_cons_iff.1 hrest.symm
    obtain ⟨rfl, rfl⟩ := Prod.mk.inj heq
    rw [Nat.add_comm] at hfault
    refine ⟨before, line, after, hlines, ?_, hfault⟩
    intro l hl
    rw [← List.zipIdx_map_fst 1 before] at hl
    obtain ⟨numbered, hnumbered, rfl⟩ := List.mem_map.1 hl
    exact hbefore numbered hnumbered
  · rintro ⟨before, line, after, hlines, hbefore, hfault⟩
    refine ⟨before.zipIdx 1, (line, 1 + before.length), after.zipIdx (1 + before.length + 1),
      ?_, ?_, ?_⟩
    · rw [hlines, List.zipIdx_append, List.zipIdx_cons]
    · intro numbered hnumbered
      have hmem := List.mem_map_of_mem (f := Prod.fst) hnumbered
      rw [List.zipIdx_map_fst] at hmem
      exact hbefore _ hmem
    · rw [Nat.add_comm]
      exact hfault

theorem outcome_parse (content : Text) : Outcome content (parse content) := by
  cases hparse : parse content with
  | ok config =>
    obtain ⟨found, hadds, rfl⟩ := parse_eq_ok_iff.1 hparse
    refine .accepted ?_ fun c => patterns_of_adds hadds c
    intro l hl
    obtain ⟨x, -, hx⟩ := Traversal.exists_mem_of_forall₂ hadds hl
    exact hx.not_bad
  | error e =>
    obtain ⟨before, line, after, hlines, hbefore, hfault⟩ := parse_eq_error_iff.1 hparse
    exact .rejected hlines hbefore hfault.bad hfault

theorem Outcome.parse_eq {content : Text} {r : Except ConfigError Config}
    (h : Outcome content r) : parse content = r := by
  cases h with
  | @rejected before line after e hlines hbefore _ hfault =>
    exact parse_eq_error_iff.2 ⟨before, line, after, hlines, hbefore, hfault⟩
  | @accepted config hgood hp =>
    cases hparse : parse content with
    | error e =>
      obtain ⟨before, line, after, hlines, -, hfault⟩ := parse_eq_error_iff.1 hparse
      have hmem : line ∈ Text.lines content := by simp [hlines]
      exact absurd hfault.bad (hgood line hmem)
    | ok config' =>
      obtain ⟨found, hadds, rfl⟩ := parse_eq_ok_iff.1 hparse
      refine congrArg Except.ok (ByCategory.ext_get ?_)
      intro c
      exact (patterns_of_adds hadds c).unique (hp c)

/-- Reading a file decides what it says: with the variables taken from the last definitions of the
whole file, it gives the fault of the first bad line with its number, and where no line is bad the
substituted values of each category in the order of the lines. -/
theorem parse_eq_iff_outcome (content : Text) (r : Except ConfigError Config) :
    parse content = r ↔ Outcome content r := by
  constructor
  · rintro rfl
    exact outcome_parse content
  · exact Outcome.parse_eq

end Keymap.ConfigFile

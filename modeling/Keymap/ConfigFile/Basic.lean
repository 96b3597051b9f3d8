import Keymap.ConfigFile.Variables

/-!
Configuration files. Each line is blank, a comment, the definition of a variable, or one pattern for
one category; lines for the same category add up. Variables apply to the whole file, also to the
lines before their definition.
-/
namespace Keymap

namespace Config

/-- The patterns of each category in the order of the entries. -/
def ofEntries (entries : List (Category × Text)) : Config :=
  ByCategory.ofFun fun c => (entries.filter fun entry => entry.1 == c).map Prod.snd

end Config

namespace ConfigFile

/-- The pattern that a line adds, if it adds one. Of several faults in one line its form comes
first, then its category, then its references. -/
def lineEntry (vars : Variables) (number : Nat) (line : Text) :
    Except ConfigError (Option (Category × Text)) :=
  let line := Text.trim line
  match line with
  | [] => .ok none
  | '#' :: _ => .ok none
  | '$' :: _ =>
    match Assignment.ofDefinition line with
    | .ok _ => .ok none
    | .error cause => .error (.malformedLine number .variable cause)
  | _ =>
    match Assignment.ofText line with
    | .error cause => .error (.malformedLine number .assignment cause)
    | .ok assignment =>
      match Category.ofName? assignment.name with
      | none => .error (.unknownCategory number assignment.name)
      | some c =>
        match vars.substitute assignment.value with
        | .error name => .error (.undefinedVariable number name)
        | .ok pattern => .ok (some (c, pattern))

/-- The entries of a file in the order of its lines, or the first fault. -/
def entries (content : Text) : Except ConfigError (List (Category × Text)) := do
  let vars := Variables.ofFile content
  let found ← ((Text.lines content).zipIdx 1).mapM fun numbered =>
    lineEntry vars numbered.2 numbered.1
  return found.filterMap id

/-- The patterns by category that a file holds. -/
def parse (content : Text) : Except ConfigError Config :=
  (entries content).map Config.ofEntries

end ConfigFile

end Keymap

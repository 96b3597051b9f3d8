import Keymap.Bindings.Basic

/-!
Chords bound to several categories. Such a chord is legal, since dispatch has an order, but worth
reporting.
-/
namespace Keymap

/-- A chord with the categories that bind it, two or more. -/
structure Conflict where
  chord : Chord
  categories : List Category
  deriving DecidableEq

/-- The chords seen so far, in the order of their first use, each with the categories that use it,
in the order of their first use of it. -/
abbrev ChordUses := List (Chord × List Category)

namespace ChordUses

def addCategory (c : Category) (users : List Category) : List Category :=
  if c ∈ users then users else users ++ [c]

/-- Notes that the category binds the chord. A repeated note changes nothing. -/
def add (chord : Chord) (c : Category) : ChordUses → ChordUses
  | [] => [(chord, [c])]
  | (other, users) :: rest =>
    if other = chord then (other, addCategory c users) :: rest
    else (other, users) :: add chord c rest

/-- The categories that bind the chord. -/
def users (uses : ChordUses) (chord : Chord) : List Category := (uses.lookup chord).getD []

def ofBindings (bindings : Bindings) : ChordUses :=
  bindings.toList.foldl (fun uses entry => entry.2.foldl (fun u ch => u.add ch entry.1) uses) []

def hasConflict (uses : ChordUses) (chord : Chord) : Bool := 1 < (uses.users chord).length

/-- The number of different pairs of a chord and a category. -/
def total : ChordUses → Nat
  | [] => 0
  | (_, users) :: rest => users.length + total rest

end ChordUses

/-- The order of the report, by the pattern shown. Nothing prescribes an order between a named key
and a literal that show the same; the named key comes first so that the report is determined. -/
def Conflict.comesBefore (x y : Conflict) : Bool :=
  let isLiteral : Chord → Bool
    | .literal _ => true
    | _ => false
  if x.chord.display = y.chord.display then !isLiteral x.chord || isLiteral y.chord
  else x.chord.display.precedes y.chord.display

/-- The chords that two or more categories bind, in the order of the report. -/
def ChordUses.conflicts (uses : ChordUses) : List Conflict :=
  let several := uses.filterMap fun entry =>
    if 1 < entry.2.length then some ⟨entry.1, entry.2⟩ else none
  several.mergeSort Conflict.comesBefore

def Bindings.conflicts (bindings : Bindings) : List Conflict :=
  (ChordUses.ofBindings bindings).conflicts

end Keymap

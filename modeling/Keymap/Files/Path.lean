import Keymap.Text.Basic

/-!
Paths as texts. A path is a list of segments between slashes; empty segments, and dots behind the
first segment, say nothing. The parent of a path and the name of its last segment are parts of the
text and do not depend on what exists.
-/
namespace Keymap.Path

def dot : Text := ['.']

def dotDot : Text := ['.', '.']

/-- Segments that stay where they are. -/
def isIdle (segment : Text) : Bool := segment.isEmpty || segment == dot

def isAbsolute (path : Text) : Bool := path.head? == some '/'

/-- What a path starts with before its segments: the root, or a dot that counts as a segment because
nothing stands before it. -/
def lead (path : Text) : Text :=
  match path with
  | '/' :: _ => ['/']
  | ['.'] => dot
  | '.' :: '/' :: _ => dot
  | _ => []

/-- The segments behind the lead, the last one first, without the idle ones at the end. -/
def segmentsUp (path : Text) : List Text :=
  ((path.drop (lead path).length).splitOn '/').reverse.dropWhile isIdle

def ofSegmentsUp (lead : Text) (segments : List Text) : Text :=
  lead ++ Text.join ['/'] segments.reverse

/-- The name that the path ends in, unless it ends in the root or in two dots. -/
def fileName? (path : Text) : Option Text :=
  match segmentsUp path with
  | [] => none
  | name :: _ => if name = dotDot then none else some name

/-- The path without its last segment. -/
def parent? (path : Text) : Option Text :=
  match segmentsUp path with
  | _ :: outer => some (ofSegmentsUp (lead path) (outer.dropWhile isIdle))
  | [] => if lead path = dot then some [] else none

/-- The directory that holds what the path names, which is the working directory where the path has
no other parent. -/
def directory (path : Text) : Text :=
  match parent? path with
  | some (c :: rest) => c :: rest
  | _ => dot

/-- The path with a home directory in the place of a tilde that stands alone before the first slash.
-/
def expandHome (home path : Text) : Text :=
  match path with
  | ['~'] => home
  | '~' :: '/' :: rest => home ++ '/' :: rest
  | _ => path

end Keymap.Path

import Outliner.Text.Pieces

/-!
# Paths

A `Path` is read from its slash-separated text. Empty components and `.` are dropped and `..` is
kept, so two texts for one place may give one path.
-/

namespace Outliner

/-- `root` is the text of the slashes that an absolute path begins with. -/
structure Path where
  root : String
  components : List String
deriving DecidableEq, Repr

namespace Path

/-- Exactly two leading slashes are a root of their own; any other number counts as one. -/
def rootOf : List Char → String
  | '/' :: '/' :: '/' :: _ => "/"
  | '/' :: '/' :: _ => "//"
  | '/' :: _ => "/"
  | _ => ""

def ofString (s : String) : Path :=
  ⟨rootOf s.toList,
    ((Text.pieces (· == '/') s.toList).map String.ofList).filter fun c => c ≠ "" ∧ c ≠ "."⟩

protected def toString (p : Path) : String :=
  if p.root == "" && p.components.isEmpty then "."
  else p.root ++ String.intercalate "/" p.components

def name (p : Path) : String :=
  p.components.getLast?.getD ""

def lastDot? : List Char → Option (List Char)
  | [] => none
  | c :: cs => (lastDot? cs).or (if c = '.' then some (c :: cs) else none)

/-- The name from its last dot on; a dot that is the first or the last character counts for
nothing. -/
def suffix (p : Path) : String :=
  match p.name.toList with
  | [] => ""
  | _ :: cs =>
    match lastDot? cs with
    | some (dot :: c :: rest) => String.ofList (dot :: c :: rest)
    | _ => ""

end Path

end Outliner

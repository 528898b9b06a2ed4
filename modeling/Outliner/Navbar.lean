import Outliner.Forest
import Outliner.Row

/-!
# The navbar

The navbar shows the top level of an outline in three buckets, classes, functions and variables,
each rendered as a tree of its own with a separator row between two of them. `bucketize` moves the
nodes into fresh buckets; `renderNavbar` moves them back afterwards, so the outline can be rendered
again.
-/

namespace Outliner

structure Buckets where
  classes : NodeId
  functions : NodeId
  constants : NodeId
deriving DecidableEq, Repr

namespace Buckets

def ofKind? (b : Buckets) : Kind → Option NodeId
  | .kindless => none
  | .classDef => some b.classes
  | .function => some b.functions
  | .constant => some b.constants

def toList (b : Buckets) : List NodeId :=
  [b.classes, b.functions, b.constants]

end Buckets

namespace Forest

def addBuckets (f : Forest) : Forest × Buckets :=
  let bucket (name : String) : Content := .declared (.synthetic name)
  let n := f.size
  let f := f.add (bucket "Classes") false
  let f := f.add (bucket "Functions") false
  (f.add (bucket "Variables") false, ⟨n, n + 1, n + 2⟩)

/-- Moves `n` to the end of its bucket; a node without a kind stays where it is. -/
def moveToBucket (b : Buckets) (f : Forest) (n : NodeId) : Forest :=
  match b.ofKind? (f.node n).kind with
  | none => f
  | some bucket => f.append bucket n

def bucketize (f : Forest) (n : NodeId) : Forest × Buckets :=
  let children := f.children n
  let (f, b) := f.addBuckets
  (children.foldl (moveToBucket b) f, b)

/-- The trees below `ns`, one after the other, with separator rows between them. -/
def renderAll (f : Forest) (ns : List NodeId) (s : Style) (label : Node → String) : List Row :=
  ((ns.map fun n => (f.tree n).render s label false).intersperse [.separator]).flatten

def renderBuckets (f : Forest) (ns : List NodeId) (style : String) (spacing : Int)
    (label : Node → String) : Except StyleError (List Row) := do
  return f.renderAll ns (← Style.resolve style spacing) label

/-- The navbar of `n`. An error in the style shows only after the children of `n` were moved into
the buckets, and leaves them there. -/
def renderNavbar (f : Forest) (n : NodeId) (style : String) (spacing : Int)
    (label : Node → String) : Except StyleError (List Row) × Forest :=
  let children := f.children n
  let (f, b) := f.bucketize n
  match f.renderBuckets b.toList style spacing label with
  | .error e => (.error e, f)
  | .ok rows => (.ok rows, children.foldl (fun f child => f.append n child) f)

end Forest

end Outliner

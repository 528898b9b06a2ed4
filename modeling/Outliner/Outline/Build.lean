import Outliner.Forest
import Outliner.Outline.Nesting
import Outliner.Text.Pieces

/-!
# Building an outline

`Forest.addOutline` puts the outline of a list of declarations into a forest: a root named `/` and
a node for each declaration, in source order, under the parent that `Nesting.placements` finds. The
children of every node are then sorted by kind and name.
-/

namespace Outliner

namespace Declaration

def root : Declaration := .synthetic "/"

def placements (ds : List Declaration) : List Placement :=
  Nesting.placements (ds.map fun d => d.indent)

end Declaration

def declarations (item? : List Char → Option Item) (text : String) : List Declaration :=
  Declaration.ofItems ((Text.lines text).map item?)

namespace Forest

def addDeclaration (root : NodeId) (f : Forest) (d : Declaration × Placement) : Forest :=
  let parent := match d.2.parent? with
    | none => root
    | some position => root + 1 + position
  (f.add (.declared d.1) false).append parent f.size

/-- The outline before sorting. Its root is the first node made. -/
def addNested (f : Forest) (ds : List Declaration) : Forest :=
  (ds.zip (Declaration.placements ds)).foldl (addDeclaration f.size)
    (f.add (.declared .root) false)

/-- The outline of `ds`. Its root has the id `f.size`. -/
def addOutline (f : Forest) (ds : List Declaration) : Forest :=
  (f.addNested ds).sortBelow f.size Node.kindNameLE

end Forest

end Outliner

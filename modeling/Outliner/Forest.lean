import Outliner.Tree

/-!
# Forests of mutable trees

A `Forest` holds every node made so far. Each cell keeps the parent of its node as well as the
list of its children, so a node can be moved without a search for its place; `append` and `detach`
update both sides together. `Forest.tree` reads the tree below a node out of the cells.

Ids are positions in creation order: the next node made has the id `f.size`.
-/

namespace Outliner

structure Cell where
  content : Content
  closed : Bool
  parent? : Option NodeId
  children : List NodeId
deriving DecidableEq, Repr

instance : Inhabited Cell := ⟨⟨.plain "", false, none, []⟩⟩

structure Forest where
  cells : Array Cell
deriving DecidableEq, Repr

namespace Forest

/-! ### Reading -/

def empty : Forest := ⟨#[]⟩

def size (f : Forest) : Nat := f.cells.size

def cell (f : Forest) (n : NodeId) : Cell := f.cells.getD n default

def node (f : Forest) (n : NodeId) : Node := ⟨n, (f.cell n).content⟩

def closed (f : Forest) (n : NodeId) : Bool := (f.cell n).closed

def parent? (f : Forest) (n : NodeId) : Option NodeId := (f.cell n).parent?

def children (f : Forest) (n : NodeId) : List NodeId := (f.cell n).children

def ancestorsWithin (f : Forest) : Nat → NodeId → List NodeId
  | 0, _ => []
  | fuel + 1, n =>
    match f.parent? n with
    | none => []
    | some p => p :: f.ancestorsWithin fuel p

/-- The nodes above `n`, the nearest first; no chain of distinct nodes is longer than `f.size`. -/
def ancestors (f : Forest) (n : NodeId) : List NodeId :=
  f.ancestorsWithin f.size n

def depth (f : Forest) (n : NodeId) : Nat := (f.ancestors n).length

def treeWithin (f : Forest) : Nat → NodeId → Tree
  | 0, n => .mk (f.node n) (f.closed n) []
  | fuel + 1, n => .mk (f.node n) (f.closed n) ((f.children n).map (f.treeWithin fuel))

/-- The tree below `n`; no branch of distinct nodes has more than `f.size` of them. -/
def tree (f : Forest) (n : NodeId) : Tree :=
  f.treeWithin f.size n

/-- The ids of the nodes below `n` and of `n` itself, in pre-order. -/
def walk (f : Forest) (n : NodeId) : List NodeId :=
  (f.tree n).walk.map Node.id

/-! ### Changing a cell -/

def modify (f : Forest) (n : NodeId) (g : Cell → Cell) : Forest :=
  ⟨f.cells.modify n g⟩

def setClosed (f : Forest) (n : NodeId) (closed : Bool) : Forest :=
  f.modify n ({ · with closed })

def setParent (f : Forest) (n : NodeId) (parent? : Option NodeId) : Forest :=
  f.modify n ({ · with parent? })

def setChildren (f : Forest) (n : NodeId) (children : List NodeId) : Forest :=
  f.modify n ({ · with children })

/-- A new node without parent and children. Its id is the size of the old forest. -/
def add (f : Forest) (content : Content) (closed : Bool) : Forest :=
  ⟨f.cells.push ⟨content, closed, none, []⟩⟩

/-! ### Moving nodes -/

def detach (f : Forest) (n : NodeId) : Forest :=
  match f.parent? n with
  | none => f
  | some p => (f.setChildren p ((f.children p).erase n)).setParent n none

/-- Makes `child` the last child of `n`, taking it away from the parent it had. -/
def append (f : Forest) (n child : NodeId) : Forest :=
  let f := (f.detach child).setParent child (some n)
  f.setChildren n (f.children n ++ [child])

/-! ### Sorting -/

/-- Sorts the children of `n`, keeping the order of children that are alike. -/
def sortChildren (le : Node → Node → Bool) (f : Forest) (n : NodeId) : Forest :=
  f.setChildren n ((f.children n).mergeSort fun a b => le (f.node a) (f.node b))

def sortBelow (f : Forest) (n : NodeId) (le : Node → Node → Bool) : Forest :=
  (f.walk n).foldl (sortChildren le) f

/-! ### Collapsing -/

def expand (f : Forest) (n : NodeId) : Forest := f.setClosed n false

def collapse (f : Forest) (n : NodeId) : Forest := f.setClosed n true

def toggle (f : Forest) (n : NodeId) : Forest := f.setClosed n (!f.closed n)

/-- Takes `fuel` nodes with their levels off the stack, closes those that lie at `depth` or deeper
and have children, and puts the children of each on the stack, the last one on top. -/
def collapseStacked (depth : Int) : Nat → List (NodeId × Nat) → Forest → Forest
  | 0, _, f => f
  | _, [], f => f
  | fuel + 1, (n, level) :: stack, f =>
    let children := f.children n
    let f := if depth ≤ level && !children.isEmpty then f.collapse n else f
    collapseStacked depth fuel (children.reverse.map (·, level + 1) ++ stack) f

def collapseBelow (f : Forest) (n : NodeId) (depth : Int) : Forest :=
  collapseStacked depth f.size [(n, 0)] f

end Forest

end Outliner

import Outliner.Item
import Outliner.Text.Quoted

/-!
# Trees of nodes

A `Node` is what a tree shows: an identity and a content, which is a bare name or a declaration.
A `Tree` adds the collapse state of each node and the order of its children; `Tree.walk` lists the
nodes in pre-order, whether or not they are hidden by a collapsed ancestor.
-/

namespace Outliner

inductive Content where
  | plain (name : String)
  | declared (declaration : Declaration)
deriving DecidableEq, Repr

namespace Content

def name : Content → String
  | plain name => name
  | declared d => d.name

def kind : Content → Kind
  | plain _ => .kindless
  | declared d => d.kind

/-- The source line of a node, or -1 if it stands for none. -/
def line : Content → Int
  | plain _ => -1
  | declared d => d.line

def describe : Content → String
  | plain name => "TreeNode(" ++ Text.quoted name ++ ")"
  | declared d => d.describe

end Content

abbrev NodeId := Nat

structure Node where
  id : NodeId
  content : Content
deriving DecidableEq, Repr

namespace Node

def name (n : Node) : String := n.content.name

def kind (n : Node) : Kind := n.content.kind

def line (n : Node) : Int := n.content.line

def markedName (n : Node) : String :=
  n.kind.marker ++ n.name

def nameLE (m n : Node) : Bool :=
  m.name ≤ n.name

/-- Order by kind, then by name. -/
def kindNameLE (m n : Node) : Bool :=
  m.kind.code < n.kind.code || m.kind.code == n.kind.code && m.nameLE n

end Node

inductive Tree where
  | mk (node : Node) (closed : Bool) (children : List Tree)

namespace Tree

def node : Tree → Node
  | mk node _ _ => node

def closed : Tree → Bool
  | mk _ closed _ => closed

def children : Tree → List Tree
  | mk _ _ children => children

mutual

def walk : Tree → List Node
  | mk node _ children => node :: walkAll children

def walkAll : List Tree → List Node
  | [] => []
  | t :: ts => t.walk ++ walkAll ts

end

theorem walkAll_eq_flatMap (ts : List Tree) : walkAll ts = ts.flatMap walk := by
  induction ts with
  | nil => rfl
  | cons t ts ih => rw [walkAll, ih, List.flatMap_cons]

end Tree

end Outliner

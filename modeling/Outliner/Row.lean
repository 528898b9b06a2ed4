import Outliner.Style
import Outliner.Tree

/-!
# Rows of a rendered tree

`Tree.render` lists the visible nodes of a tree in pre-order, one `Row` each. The text of a row is
padding, lead and label: below a last sibling the padding grows by the empty filler and below any
other by the link, so a vertical line goes on only where a later sibling follows.
-/

namespace Outliner

/-- A display row; separator rows show no node. -/
structure Row where
  text : String
  node? : Option Node
deriving DecidableEq, Repr

namespace Row

def separator : Row := ⟨"", none⟩

def isSeparator (r : Row) : Bool := r.node?.isNone

/-- The source line a row stands for, or -1. -/
def line (r : Row) : Int :=
  match r.node? with
  | none => -1
  | some n => n.line

end Row

namespace Tree

def fold (t : Tree) : Fold :=
  .of (!t.children.isEmpty) t.closed

variable (s : Style) (label : Node → String)

mutual

def rows (padding : String) (place : Place) : Tree → List Row
  | mk node closed children =>
    ⟨padding ++ (s.lead place).pick (.of (!children.isEmpty) closed) ++ label node, some node⟩
      :: if closed then [] else rowsAll (padding ++ s.filler place) false children

/-- The rows of siblings. The first of them has the place `first` if `marked`, and the last one
has the place `last` in any case. -/
def rowsAll (padding : String) (marked : Bool) : List Tree → List Row
  | [] => []
  | t :: ts =>
    let place := if ts.isEmpty then .last else if marked then .first else .nth
    rows padding place t ++ rowsAll padding false ts

end

def render (hideRoot : Bool) : Tree → List Row
  | mk node closed children =>
    if hideRoot then
      if closed then [] else rowsAll s label "" false children
    else
      ⟨s.root.pick (.of (!children.isEmpty) closed) ++ label node, some node⟩
        :: if closed then [] else rowsAll s label s.empty true children

end Tree

end Outliner

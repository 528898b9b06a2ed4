import Outliner.Kind

/-!
# Items and declarations

An `Item` is what one source line declares; a `Declaration` is an item with the number of its line.
Lines are numbered from 1, and declarations that stand for no line carry -1.
-/

namespace Outliner

structure Item where
  name : String
  kind : Kind
  indent : Int
deriving DecidableEq, Repr

structure Declaration extends Item where
  line : Int
deriving DecidableEq, Repr

namespace Declaration

/-- A declaration that stands for no source line, such as the root of an outline. -/
def synthetic (name : String) : Declaration :=
  { name, kind := .kindless, indent := 0, line := -1 }

def describe (d : Declaration) : String :=
  s!"OutlineNode({d.kind.code}, {d.name}, {d.line}, {d.indent})"

/-- The declarations among the results for the lines `n`, `n + 1`, …. -/
def ofItemsFrom (n : Nat) : List (Option Item) → List Declaration
  | [] => []
  | none :: items => ofItemsFrom (n + 1) items
  | some item :: items => { item with line := n } :: ofItemsFrom (n + 1) items

def ofItems (items : List (Option Item)) : List Declaration :=
  ofItemsFrom 1 items

end Declaration

end Outliner

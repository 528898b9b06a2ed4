import Outliner.Forest
import Outliner.Row

/-!
# Moving about in rendered rows

`rowIndexForLine` finds the row to highlight for a source line, `nextDeclaration` steps from row to
row, and `Forest.toggleRow` opens or closes the node of a row.
-/

namespace Outliner

/-- One step of the search for the row of a line: keeps the greater line number, the earlier on a
tie. Numbers below 1 stand for no line. -/
def closerRow (line : Int) (best? : Option (Nat × Int)) (row : Int × Nat) : Option (Nat × Int) :=
  let (start, i) := row
  if start < 1 ∨ line < start then best?
  else
    match best? with
    | some (_, best) => if best < start then some (i, start) else best?
    | none => some (i, start)

/-- The index of the first row that starts nearest at or above `line`. -/
def rowIndexForLine (rows : List Row) (line : Int) : Option Nat :=
  ((rows.map Row.line).zipIdx.foldl (closerRow line) none).map Prod.fst

def declarationRows (rows : List Row) : List Nat :=
  (List.range rows.length).filter fun i => (rows[i]?.map Row.line).any (1 ≤ ·)

/-- The index of the nearest row with a source line after `selected` (`direction` positive) or
before it (`direction` negative). A search that begins outside the rows finds nothing. -/
def nextDeclaration (rows : List Row) (selected direction : Int) : Option Nat :=
  if 0 < direction then
    if selected < -1 then none else (declarationRows rows).find? fun i => selected < i
  else if direction < 0 then
    if rows.length < selected then none
    else (declarationRows rows).reverse.find? fun i => i < selected
  else none

namespace Forest

def foldable? (f : Forest) (rows : List Row) (i : Int) : Option NodeId :=
  if i < 0 then none
  else
    ((rows[i.toNat]?).bind Row.node?).bind fun n =>
      if (f.children n.id).isEmpty then none else some n.id

def toggleRow (f : Forest) (rows : List Row) (i : Int) : Bool × Forest :=
  match f.foldable? rows i with
  | none => (false, f)
  | some n => (true, f.toggle n)

end Forest

end Outliner

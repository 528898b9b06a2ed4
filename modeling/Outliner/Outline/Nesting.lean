/-!
# Nesting by indentation

`Nesting.placements` finds the parent of every item of a source from the indents alone. An item
deeper than the one before it goes under that one; an item at the same indent becomes its sibling;
a shallower item becomes a sibling of the last item that had its indent, however long ago. Items at
indent 0 go under the root. Where the rule names an item that does not exist the root stands in for
it, and the placement is *stranded*.

Items are named by their position in the source, and a parent `none` is the root.
-/

namespace Outliner

structure Placement where
  parent? : Option Nat
  stranded : Bool
deriving DecidableEq, Repr

structure Seat where
  position : Nat
  parent? : Option Nat
deriving DecidableEq, Repr

/-- What is known after some items: the indent and the parent of the last one (of the root's own
level before the first), and every item so far with its indent, the last one first. -/
structure Nesting where
  indent : Int
  parent? : Option Nat
  seats : List (Int × Seat)

namespace Nesting

def start : Nesting :=
  ⟨0, none, []⟩

def last? (s : Nesting) (indent : Int) : Option Seat :=
  s.seats.lookup indent

def place (s : Nesting) (indent : Int) : Placement :=
  if s.indent < indent then
    match s.last? s.indent with
    | some seat => ⟨some seat.position, false⟩
    | none => ⟨none, true⟩
  else if indent = 0 then
    ⟨none, false⟩
  else if indent < s.indent then
    match s.last? indent with
    | some seat => ⟨seat.parent?, false⟩
    | none => ⟨none, true⟩
  else
    ⟨s.parent?, false⟩

def next (s : Nesting) (position : Nat) (indent : Int) : Nesting :=
  let parent? := (s.place indent).parent?
  ⟨indent, parent?, (indent, ⟨position, parent?⟩) :: s.seats⟩

/-- The placements of the items `position`, `position + 1`, …, with the given indents. -/
def placementsFrom (s : Nesting) (position : Nat) : List Int → List Placement
  | [] => []
  | i :: is => s.place i :: (s.next position i).placementsFrom (position + 1) is

def placements (indents : List Int) : List Placement :=
  start.placementsFrom 0 indents

theorem length_placementsFrom (s : Nesting) (k : Nat) (is : List Int) :
    (s.placementsFrom k is).length = is.length := by
  induction is generalizing s k with
  | nil => rfl
  | cons i is ih => simp [placementsFrom, ih]

theorem length_placements (is : List Int) : (placements is).length = is.length :=
  length_placementsFrom ..

end Nesting

end Outliner

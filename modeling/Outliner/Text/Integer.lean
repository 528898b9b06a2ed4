import Outliner.Text.Blank
import Outliner.Text.Digit

/-!
# Integers in text

`integer?` reads a whole number: perhaps a sign, then decimal digits of any script, with single
underscores between digits if they help the eye. Blanks may stand around it.
-/

namespace Outliner.Text

/-- The blanks that may stand around a number. Of the ASCII blanks the information separators are
not among them. -/
def isNumberBlank (c : Char) : Bool :=
  isBlank c && !(0x1C ≤ c.toNat && c.toNat < 0x20)

/-- The values of the digits of `cs`, which may be kept apart by underscores. -/
def digits? : List Char → Option (List Nat)
  | [] => none
  | [c] => (digit? c).map ([·])
  | c :: '_' :: cs => do return (← digit? c) :: (← digits? cs)
  | c :: d :: cs => do return (← digit? c) :: (← digits? (d :: cs))

def natural? (cs : List Char) : Option Nat := do
  let ds ← digits? cs
  guard (ds.length ≤ maxDigits)
  return ds.foldl (fun n d => n * 10 + d) 0

def integer? (s : String) : Option Int :=
  let cs := ((s.toList.dropWhile isNumberBlank).reverse.dropWhile isNumberBlank).reverse
  match cs with
  | '-' :: cs => (natural? cs).map fun n => -(n : Int)
  | '+' :: cs => (natural? cs).map Int.ofNat
  | cs => (natural? cs).map Int.ofNat

end Outliner.Text

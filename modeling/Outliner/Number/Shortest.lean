import Outliner.Number.Binary

/-!
# The shortest decimal text of a binary number

`Binary64.shortest` selects the fewest digits that still read back as the same value, and among
those the nearest to it. `Binary64.text` lays them out: positionally if the leading digit stands for
`10 ^ e` with `-4 ≤ e < 16`, and otherwise with a signed exponent of at least two digits.
-/

namespace Outliner

structure Decimal where
  digits : Nat
  exponent : Int
deriving DecidableEq, Repr

namespace Binary64

/-- Whether `d` lies among the numbers that round to `m * 2 ^ q`: the interval that ends halfway to
the two neighbouring values, with its ends if `m` is even. -/
def readsBack (m : Nat) (q : Int) (d : Decimal) : Bool :=
  let value := d.digits * power 10 d.exponent * power 2 (2 - q)
  let scale := power 2 (q - 2) * power 10 (-d.exponent)
  let low := (if m = power 2 52 ∧ -1074 < q then 4 * m - 1 else 4 * m - 2) * scale
  let high := (4 * m + 2) * scale
  if m % 2 = 0 then low ≤ value && value ≤ high else low < value && value < high

def magnitude (num den : Nat) : Int :=
  if den ≤ num then digitCount (num / den) else 1 - (digitCount ((den - 1) / num) : Int)

def neighbours (m : Nat) (q j : Int) : List Decimal :=
  let num := m * power 2 q * power 10 (-j)
  let den := power 2 (-q) * power 10 j
  let below := num / den
  if roundHalfEven num den = below then [⟨below, j⟩, ⟨below + 1, j⟩]
  else [⟨below + 1, j⟩, ⟨below, j⟩]

/-- The shortest decimal that reads back as `m * 2 ^ q`, for positive `m`. Seventeen digits are
always enough. -/
def shortest (m : Nat) (q : Int) : Decimal :=
  let k := magnitude (m * power 2 q) (power 2 (-q))
  let found? := (List.range 17).findSome? fun (n : Nat) =>
    (neighbours m q (k - (n + 1))).find? (readsBack m q)
  found?.getD ⟨m * power 2 q, 0⟩

/-- The text of a number whose digits `ds` follow a point that is then moved `point` places to the
right. -/
def layout (ds : List Char) (point : Int) : List Char :=
  if -4 < point ∧ point ≤ 16 then
    let whole := ds.take point.toNat
    let whole := whole ++ List.replicate (point.toNat - whole.length) '0'
    let rest := List.replicate (-point).toNat '0' ++ ds.drop point.toNat
    (if whole.isEmpty then ['0'] else whole) ++ '.' :: (if rest.isEmpty then ['0'] else rest)
  else
    let e := point - 1
    let exponent := Nat.toDigits 10 e.natAbs
    let exponent := List.replicate (2 - exponent.length) '0' ++ exponent
    ds.take 1 ++ (if ds.length ≤ 1 then [] else '.' :: ds.drop 1)
      ++ 'e' :: (if e < 0 then '-' else '+') :: exponent

def finiteText (m : Nat) (q : Int) : List Char :=
  if m = 0 then ['0', '.', '0']
  else
    let d := shortest m q
    let ds := Nat.toDigits 10 d.digits
    layout (ds.reverse.dropWhile (· == '0')).reverse (ds.length + d.exponent)

def text : Binary64 → List Char
  | nan => "NaN".toList
  | infinite negative => (if negative then ['-'] else []) ++ "Infinity".toList
  | finite negative m q => (if negative then ['-'] else []) ++ finiteText m q

end Binary64

end Outliner

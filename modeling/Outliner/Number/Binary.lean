/-!
# Binary numbers of 64 bits

A `Binary64` is a value of the binary floating-point format of 64 bits. `Binary64.ofDecimal` is the
value nearest to a decimal number; of two that are equally near it is the one with even mantissa.
-/

namespace Outliner

/-- `finite negative m q` is `m * 2 ^ q` with its sign, where `m < 2 ^ 53`, `-1074 ≤ q ≤ 971`, and
`2 ^ 52 ≤ m` unless `q = -1074`. -/
inductive Binary64 where
  | nan
  | infinite (negative : Bool)
  | finite (negative : Bool) (m : Nat) (q : Int)
deriving DecidableEq, Repr

def roundHalfEven (num den : Nat) : Nat :=
  let n := num / den
  let r := num % den
  if 2 * r < den then n else if den < 2 * r then n + 1 else n + n % 2

def digitCount (n : Nat) : Nat :=
  (Nat.toDigits 10 n).length

/-- `base` to the power `k`, which counts as 0 if it is negative. A factor `base ^ k` with any `k`
is the quotient of `power base k` and `power base (-k)`. -/
def power (base : Nat) (k : Int) : Nat :=
  Nat.pow base k.toNat

namespace Binary64

def ofRatio (negative : Bool) (num den : Nat) : Binary64 :=
  if num = 0 then finite negative 0 (-1074)
  else
    let q : Int := num.log2 - den.log2 - 53
    let q := if num * power 2 (-q) / (den * power 2 q) < power 2 53 then q else q + 1
    let q := max q (-1074)
    let m := roundHalfEven (num * power 2 (-q)) (den * power 2 q)
    let (m, q) := if m = power 2 53 then (power 2 52, q + 1) else (m, q)
    if 971 < q then infinite negative else finite negative m q

/-- The value nearest to `digits * 10 ^ exponent`, with its sign. Exponents that are out of all
range are settled without computing the power. -/
def ofDecimal (negative : Bool) (digits : Nat) (exponent : Int) : Binary64 :=
  let point := digitCount digits + exponent
  if digits = 0 ∨ point < -330 then finite negative 0 (-1074)
  else if 310 < point then infinite negative
  else ofRatio negative (digits * power 10 exponent) (power 10 (-exponent))

end Binary64

end Outliner

import Outliner.Text.Printable

/-!
# Quoted text

`quoted` writes a text between quotes so that every character can be seen: unprintable characters
are written as escapes. The quote is `'`, or `"` if that avoids escaping a quote.
-/

namespace Outliner.Text

/-- The last `digits` hexadecimal digits of `n`, in lower case. -/
def hex (digits n : Nat) : List Char :=
  (List.range digits).reverse.map fun k => Nat.digitChar ((n >>> (4 * k)) % 16)

def escaped (quote c : Char) : List Char :=
  if c = quote ∨ c = '\\' then ['\\', c]
  else if c = '\t' then ['\\', 't']
  else if c = '\n' then ['\\', 'n']
  else if c = '\r' then ['\\', 'r']
  else if isPrintable c then [c]
  else if c.toNat < 0x100 then '\\' :: 'x' :: hex 2 c.toNat
  else if c.toNat < 0x10000 then '\\' :: 'u' :: hex 4 c.toNat
  else '\\' :: 'U' :: hex 8 c.toNat

def quoteFor (cs : List Char) : Char :=
  if cs.contains '\'' && !cs.contains '"' then '"' else '\''

def quoted (s : String) : String :=
  let quote := quoteFor s.toList
  String.ofList (quote :: s.toList.flatMap (escaped quote) ++ [quote])

end Outliner.Text

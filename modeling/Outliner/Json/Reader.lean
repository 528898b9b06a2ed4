import Outliner.Json
import Outliner.Text.Digit

/-!
# Reading JSON

`Json.parse` reads a text that holds one JSON value. Beyond the JSON standard it knows `NaN`,
`Infinity` and `-Infinity`. A number without fraction and exponent is an integer, of at most 4300
digits; any other number is rounded to 64 bits.
-/

namespace Outliner.Json

namespace Reader

def isSpace (c : Char) : Bool :=
  c = ' ' || c = '\t' || c = '\n' || c = '\r'

def skip (cs : List Char) : List Char :=
  cs.dropWhile isSpace

/-! ### Strings -/

def hexDigit? (c : Char) : Option Nat :=
  if c.isDigit then some (c.toNat - 0x30)
  else if 'a' ≤ c ∧ c ≤ 'f' then some (c.toNat - 0x61 + 10)
  else if 'A' ≤ c ∧ c ≤ 'F' then some (c.toNat - 0x41 + 10)
  else none

def hex4? (a b c d : Char) : Option Nat := do
  return (((← hexDigit? a) * 16 + (← hexDigit? b)) * 16 + (← hexDigit? c)) * 16 + (← hexDigit? d)

def unescape? : Char → Option Char
  | '"' => some '"'
  | '\\' => some '\\'
  | '/' => some '/'
  | 'b' => some '\x08'
  | 'f' => some '\x0c'
  | 'n' => some '\n'
  | 'r' => some '\r'
  | 't' => some '\t'
  | _ => none

/-- The numbers of the characters up to the closing quote, and what follows it. An escape with a
number may give half of a pair of surrogates. -/
def units? : List Char → Option (List Nat × List Char)
  | [] => none
  | '"' :: cs => some ([], cs)
  | '\\' :: 'u' :: a :: b :: c :: d :: cs => do
    let u ← hex4? a b c d
    let (us, rest) ← units? cs
    return (u :: us, rest)
  | '\\' :: c :: cs => do
    let c ← unescape? c
    let (us, rest) ← units? cs
    return (c.toNat :: us, rest)
  | c :: cs => do
    guard (0x20 ≤ c.toNat)
    let (us, rest) ← units? cs
    return (c.toNat :: us, rest)

def isHigh (u : Nat) : Bool := 0xD800 ≤ u && u < 0xDC00

def isLow (u : Nat) : Bool := 0xDC00 ≤ u && u < 0xE000

/-- The character with the number `u`; half of a pair that stands alone is no character. -/
def ofUnit (u : Nat) : Char :=
  if isHigh u || isLow u then '\ufffd' else Char.ofNat u

/-- Joins the surrogates that stand in pairs. -/
def join : List Nat → List Char
  | [] => []
  | [u] => [ofUnit u]
  | u :: v :: us =>
    if isHigh u && isLow v then
      Char.ofNat (0x10000 + (u - 0xD800) * 0x400 + (v - 0xDC00)) :: join us
    else ofUnit u :: join (v :: us)

def string? (cs : List Char) : Option (String × List Char) :=
  (units? cs).map fun (us, rest) => (String.ofList (join us), rest)

/-! ### Numbers -/

def natural (ds : List Char) : Nat :=
  ds.foldl (fun n d => n * 10 + (d.toNat - 0x30)) 0

/-- The digits before the point: a zero alone, or digits that do not begin with one. -/
def whole? : List Char → Option (List Char × List Char)
  | [] => none
  | '0' :: cs => some (['0'], cs)
  | c :: cs =>
    if c.isDigit then some (c :: cs.takeWhile Char.isDigit, cs.dropWhile Char.isDigit) else none

def fraction? : List Char → Option (List Char × List Char)
  | '.' :: cs =>
    if (cs.takeWhile Char.isDigit).isEmpty then none
    else some (cs.takeWhile Char.isDigit, cs.dropWhile Char.isDigit)
  | _ => none

def sign : List Char → Bool × List Char
  | '-' :: cs => (true, cs)
  | '+' :: cs => (false, cs)
  | cs => (false, cs)

def exponent? : List Char → Option (Int × List Char)
  | c :: cs =>
    let (negative, cs) := sign cs
    let ds := cs.takeWhile Char.isDigit
    if (c = 'e' ∨ c = 'E') ∧ !ds.isEmpty then
      some (if negative then -(natural ds : Int) else natural ds, cs.dropWhile Char.isDigit)
    else none
  | [] => none

def unsigned? (negative : Bool) (cs : List Char) : Option (Json × List Char) := do
  let (whole, cs) ← whole? cs
  match fraction? cs, exponent? ((fraction? cs).elim cs Prod.snd) with
  | none, none =>
    guard (whole.length ≤ Text.maxDigits)
    return (.int (if negative then -(natural whole : Int) else natural whole), cs)
  | fraction?, exponent? =>
    let ds := fraction?.elim [] Prod.fst
    let rest := fraction?.elim cs Prod.snd
    let e := exponent?.elim 0 Prod.fst
    let x := Binary64.ofDecimal negative (natural (whole ++ ds)) (e - ds.length)
    return (.float x, exponent?.elim rest Prod.snd)

def number? : List Char → Option (Json × List Char)
  | '-' :: cs => unsigned? true cs
  | cs => unsigned? false cs

/-! ### Values -/

def words : List (String × Json) :=
  [("null", .null), ("true", .bool true), ("false", .bool false), ("NaN", .float .nan),
   ("Infinity", .float (.infinite false)), ("-Infinity", .float (.infinite true))]

def word? (cs : List Char) : Option (Json × List Char) :=
  words.findSome? fun w => (w.1.toList.isPrefixOf? cs).map (w.2, ·)

mutual

/-- The value at the start of the text, and what follows it. -/
def value? : Nat → List Char → Option (Json × List Char)
  | 0, _ => none
  | fuel + 1, cs =>
    match cs with
    | '"' :: cs => (string? cs).map fun (s, rest) => (.str s, rest)
    | '[' :: cs =>
      match skip cs with
      | ']' :: rest => some (.arr [], rest)
      | cs => (elements? fuel cs).map fun (vs, rest) => (.arr vs, rest)
    | '{' :: cs =>
      match skip cs with
      | '}' :: rest => some (.obj [], rest)
      | cs => (members? fuel cs).map fun (ms, rest) => (.obj (Members.ofList ms), rest)
    | cs => (word? cs).or (number? cs)

def elements? : Nat → List Char → Option (List Json × List Char)
  | 0, _ => none
  | fuel + 1, cs => do
    let (v, cs) ← value? fuel cs
    match skip cs with
    | ']' :: rest => return ([v], rest)
    | ',' :: cs =>
      let (vs, rest) ← elements? fuel (skip cs)
      return (v :: vs, rest)
    | _ => none

def members? : Nat → List Char → Option (List (String × Json) × List Char)
  | 0, _ => none
  | fuel + 1, cs =>
    match cs with
    | '"' :: cs => do
      let (key, cs) ← string? cs
      match skip cs with
      | ':' :: cs =>
        let (v, cs) ← value? fuel (skip cs)
        match skip cs with
        | '}' :: rest => return ([(key, v)], rest)
        | ',' :: cs =>
          let (ms, rest) ← members? fuel (skip cs)
          return ((key, v) :: ms, rest)
        | _ => none
      | _ => none
    | _ => none

end

end Reader

/-- The value that `text` holds. Every level of nesting takes at least one character, which bounds
the depth of the search. -/
def parse (text : String) : Option Json := do
  let (v, rest) ← Reader.value? (2 * text.length + 1) (Reader.skip text.toList)
  guard (Reader.skip rest).isEmpty
  return v

end Outliner.Json

import Outliner.Json
import Outliner.Number.Shortest
import Outliner.Text.Quoted

/-!
# Writing JSON

`Json.write` lays a value out with one element on a line, indented by two blanks a level. What is
written is ASCII: any other character is escaped by its number, or by the two numbers of a pair of
surrogates.
-/

namespace Outliner.Json

namespace Writer

def unicodeEscape (u : Nat) : List Char :=
  '\\' :: 'u' :: Text.hex 4 u

def escaped (c : Char) : List Char :=
  if c = '"' ∨ c = '\\' then ['\\', c]
  else if c = '\x08' then ['\\', 'b']
  else if c = '\x0c' then ['\\', 'f']
  else if c = '\n' then ['\\', 'n']
  else if c = '\r' then ['\\', 'r']
  else if c = '\t' then ['\\', 't']
  else if 0x20 ≤ c.toNat ∧ c.toNat < 0x7F then [c]
  else if c.toNat < 0x10000 then unicodeEscape c.toNat
  else
    unicodeEscape (0xD800 + (c.toNat - 0x10000) / 0x400)
      ++ unicodeEscape (0xDC00 + (c.toNat - 0x10000) % 0x400)

def string (s : String) : List Char :=
  '"' :: s.toList.flatMap escaped ++ ['"']

/-- What stands between a bracket and the elements at the given level. -/
def gap (level : Nat) : List Char :=
  '\n' :: List.replicate (2 * level) ' '

mutual

/-- The text of a value that begins at the given level. -/
def value (level : Nat) : Json → List Char
  | .null => "null".toList
  | .bool b => (if b then "true" else "false").toList
  | .int n => (toString n).toList
  | .float x => x.text
  | .str s => string s
  | .arr [] => ['[', ']']
  | .arr (v :: vs) =>
    '[' :: gap (level + 1) ++ value (level + 1) v ++ elements (level + 1) vs ++ gap level ++ [']']
  | .obj [] => ['{', '}']
  | .obj ((key, v) :: ms) =>
    '{' :: gap (level + 1) ++ string key ++ ':' :: ' ' :: value (level + 1) v
      ++ members (level + 1) ms ++ gap level ++ ['}']

def elements (level : Nat) : List Json → List Char
  | [] => []
  | v :: vs => ',' :: gap level ++ value level v ++ elements level vs

def members (level : Nat) : List (String × Json) → List Char
  | [] => []
  | (key, v) :: ms =>
    ',' :: gap level ++ string key ++ ':' :: ' ' :: value level v ++ members level ms

end

end Writer

def write (v : Json) : String :=
  String.ofList (Writer.value 0 v)

end Outliner.Json

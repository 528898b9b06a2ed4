import Outliner.Item
import Outliner.Text.Blank
import Outliner.Text.Word

/-!
# What a line declares

`Line.item?` recognises the three forms of a declaration, each at the start of the line:

* blanks, optionally `async` and blanks, `def`, blanks, a name, and `(`;
* blanks, `class`, blanks, a name, and `(` or `:`;
* a name and a single `=`.

Blanks may stand before the closing character of each form. A line is read on its own: a line of a
quoted text that has one of the forms counts as a declaration too.
-/

namespace Outliner

namespace Line

open Text

def after? (word : String) (cs : List Char) : Option (List Char) :=
  word.toList.isPrefixOf? cs

/-- What follows a run of at least one blank. -/
def afterBlanks? : List Char → Option (List Char)
  | [] => none
  | c :: cs => if isBlank c then some (cs.dropWhile isBlank) else none

def name? : List Char → Option (List Char × List Char)
  | [] => none
  | c :: cs => if isNameStart c then some (c :: cs.takeWhile isWord, cs.dropWhile isWord) else none

/-- The name after a keyword and blanks, and what follows the name and more blanks. -/
def header? (keyword : String) (cs : List Char) : Option (List Char × List Char) := do
  let cs ← after? keyword cs
  let cs ← afterBlanks? cs
  let (name, cs) ← name? cs
  return (name, cs.dropWhile isBlank)

def skipAsync (cs : List Char) : List Char :=
  ((after? "async" cs).bind afterBlanks?).getD cs

def indent (line : List Char) : Nat :=
  (line.takeWhile isBlank).length

def function? (line : List Char) : Option Item :=
  match header? "def" (skipAsync (line.dropWhile isBlank)) with
  | some (name, '(' :: _) => some ⟨String.ofList name, .function, indent line⟩
  | _ => none

def class? (line : List Char) : Option Item :=
  match header? "class" (line.dropWhile isBlank) with
  | some (name, c :: _) =>
    if c = '(' ∨ c = ':' then some ⟨String.ofList name, .classDef, indent line⟩ else none
  | _ => none

def assignment? (line : List Char) : Option Item :=
  match name? line with
  | some (name, rest) =>
    match rest.dropWhile isBlank with
    | '=' :: '=' :: _ => none
    | '=' :: _ => some ⟨String.ofList name, .constant, 0⟩
    | _ => none
  | none => none

/-- The declaration at the start of `line`. No line has two of the three forms. -/
def item? (line : List Char) : Option Item :=
  (function? line).or ((class? line).or (assignment? line))

/-! ### Indents -/

variable {line : List Char} {item : Item}

theorem function?_indent (h : function? line = some item) : item.indent = indent line := by
  unfold function? at h
  split at h
  · cases h
    rfl
  · cases h

theorem class?_indent (h : class? line = some item) : item.indent = indent line := by
  unfold class? at h
  split at h
  · split at h
    · cases h
      rfl
    · cases h
  · cases h

theorem assignment?_indent (h : assignment? line = some item) : item.indent = 0 := by
  unfold assignment? at h
  split at h
  · split at h
    · cases h
    · cases h
      rfl
    · cases h
  · cases h

theorem item?_indent_nonneg (h : item? line = some item) : 0 ≤ item.indent := by
  rcases Option.or_eq_some_iff.1 h with h | ⟨-, h⟩
  · exact function?_indent h ▸ Int.natCast_nonneg _
  · rcases Option.or_eq_some_iff.1 h with h | ⟨-, h⟩
    · exact class?_indent h ▸ Int.natCast_nonneg _
    · exact Int.le_of_eq (assignment?_indent h).symm

end Line

end Outliner

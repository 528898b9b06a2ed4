import Outliner.Row
import Outliner.Text.Blank
import Outliner.Text.Lower

/-!
# Colour themes

A `Theme` gives the terminal sequences that colour a label by the kind of its node and that mark
the selected row. The plain theme has none: with it a text is printed as it is.
-/

namespace Outliner

structure Theme where
  name : String
  reset : String
  /-- begins the selected row -/
  reverse : String
  bucket : String
  classDef : String
  function : String
  constant : String
deriving DecidableEq, Repr

namespace Theme

def sequence (parameters : String) : String :=
  "\x1b[" ++ parameters ++ "m"

def default : Theme where
  name := "default"
  reset := sequence "0"
  reverse := sequence "7"
  bucket := sequence "1;34"
  classDef := sequence "38;5;229"
  function := sequence "38;5;110"
  constant := sequence "38;5;250"

def ocean : Theme where
  name := "ocean"
  reset := sequence "0"
  reverse := sequence "7"
  bucket := sequence "1;38;5;45"
  classDef := sequence "38;5;153"
  function := sequence "38;5;117"
  constant := sequence "38;5;73"

def plain : Theme where
  name := "plain"
  reset := ""
  reverse := ""
  bucket := ""
  classDef := ""
  function := ""
  constant := ""

def selectable : List Theme :=
  [default, ocean]

def names : List String :=
  selectable.map Theme.name

/-- The theme that is meant by `name`: blanks around it and its case do not matter, and the default
theme stands in for a missing or unknown one. -/
def named (name? : Option String) : Theme :=
  match name? with
  | none => default
  | some name =>
    let key := Text.lower (Text.trim name)
    (selectable.find? (·.name == key)).getD default

def resolve (name? : Option String) (noColor : Bool) : Theme :=
  if noColor then plain else named name?

def color (t : Theme) : Kind → String
  | .kindless => t.bucket
  | .classDef => t.classDef
  | .function => t.function
  | .constant => t.constant

/-- The label `base`, coloured by the kind of the node. -/
def label (t : Theme) (base : Node → String) (n : Node) : String :=
  let color := t.color n.kind
  if color == "" then base n else color ++ base n ++ t.reset

def rowText (t : Theme) (selected : Bool) (r : Row) : String :=
  if selected && t.reverse != "" then t.reverse ++ r.text ++ t.reset else r.text

/-- The rows as lines of text, with the row at index `selected?` highlighted. -/
def print (t : Theme) (rows : List Row) (selected? : Option Int) : String :=
  String.join (rows.zipIdx.map fun (r, i) => t.rowText (selected? == some (i : Int)) r ++ "\n")

end Theme

end Outliner

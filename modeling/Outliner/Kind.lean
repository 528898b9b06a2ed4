/-!
# Kinds of declarations

`Kind` lists what a line can declare. The codes 0 to 3 fix the order in which siblings are sorted.
-/

namespace Outliner

inductive Kind where
  | kindless
  | classDef
  | function
  | constant
deriving DecidableEq, Repr

namespace Kind

def code : Kind → Nat
  | kindless => 0
  | classDef => 1
  | function => 2
  | constant => 3

def label : Kind → String
  | kindless => "None"
  | classDef => "Class"
  | function => "Function"
  | constant => "Variable"

/-- The letter put before a name to show its kind. -/
def marker : Kind → String
  | kindless => ""
  | classDef => "C "
  | function => "f "
  | constant => "v "

structure UnknownCode where
  code : Int
deriving DecidableEq, Repr

def UnknownCode.message (e : UnknownCode) : String :=
  toString e.code ++ " is not a valid ItemKind"

def ofCode : Int → Except UnknownCode Kind
  | 0 => .ok kindless
  | 1 => .ok classDef
  | 2 => .ok function
  | 3 => .ok constant
  | n => .error ⟨n⟩

end Kind

end Outliner

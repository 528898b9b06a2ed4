import Outliner.Text.Quoted

/-!
# Glyph styles

A `Style` gives the text drawn before the label of a row: a `Lead` for each place a node can have
among its siblings, and the two fillers that lead down to deeper rows. `Style.resolve` finds a
preset by its name and widens its glyphs.
-/

namespace Outliner

/-- What a node shows of its children: there are none, they are shown, or they are hidden. -/
inductive Fold where
  | leaf
  | opened
  | closed
deriving DecidableEq, Repr

def Fold.of (hasChildren closed : Bool) : Fold :=
  if !hasChildren then .leaf else if closed then .closed else .opened

structure Lead where
  leaf : String
  opened : String
  closed : String
deriving DecidableEq, Repr

def Lead.pick (l : Lead) : Fold → String
  | .leaf => l.leaf
  | .opened => l.opened
  | .closed => l.closed

def Lead.map (g : String → String) (l : Lead) : Lead :=
  ⟨g l.leaf, g l.opened, g l.closed⟩

inductive Place where
  | last
  | first
  | nth
deriving DecidableEq, Repr

structure Style where
  name : String
  root : Lead
  last : Lead
  first : Lead
  nth : Lead
  /-- drawn below a node with a later sibling -/
  link : String
  /-- drawn below a node without one -/
  empty : String
  fill : String
deriving DecidableEq, Repr

inductive StyleError where
  | unknown (name : String)
  | negativeSpacing
deriving DecidableEq, Repr

namespace Style

def lead (s : Style) : Place → Lead
  | .last => s.last
  | .first => s.first
  | .nth => s.nth

def filler (s : Style) : Place → String
  | .last => s.empty
  | .first | .nth => s.link

/-- `s` with `fill` put `n` times behind each glyph. -/
def widen (s : Style) (n : Nat) : Style :=
  let pad := (· ++ String.join (List.replicate n s.fill))
  { s with
    root := s.root.map pad
    last := s.last.map pad
    first := s.first.map pad
    nth := s.nth.map pad
    link := pad s.link
    empty := pad s.empty }

def padded (s : Style) (spacing : Int) : Except StyleError Style :=
  if spacing < 0 then .error .negativeSpacing else .ok (s.widen spacing.toNat)

/-! ### Presets -/

def bare : Style where
  name := "bare"
  root := ⟨"  ", "- ", "+ "⟩
  last := ⟨"  ", "- ", "+ "⟩
  first := ⟨"  ", "- ", "+ "⟩
  nth := ⟨"  ", "- ", "+ "⟩
  link := "  "
  empty := "  "
  fill := " "

def ascii : Style where
  name := "ascii"
  root := ⟨"*  ", "v  ", ">  "⟩
  last := ⟨"`- ", "`v ", "`> "⟩
  first := ⟨"|- ", "|v ", "|> "⟩
  nth := ⟨"|- ", "|v ", "|> "⟩
  link := "|  "
  empty := "   "
  fill := " "

def box : Style where
  name := "box"
  root := ⟨"·  ", "▾  ", "▸  "⟩
  last := ⟨"└─ ", "└▾ ", "└▸ "⟩
  first := ⟨"├─ ", "├▾ ", "├▸ "⟩
  nth := ⟨"├─ ", "├▾ ", "├▸ "⟩
  link := "│  "
  empty := "   "
  fill := " "

def rounded : Style where
  name := "rounded"
  root := ⟨"·  ", "▾  ", "▸  "⟩
  last := ⟨"╰─ ", "╰▾ ", "╰▸ "⟩
  first := ⟨"╭─ ", "╭▾ ", "╭▸ "⟩
  nth := ⟨"├─ ", "├▾ ", "├▸ "⟩
  link := "│  "
  empty := "   "
  fill := " "

def presets : List Style :=
  [ascii, bare, box, rounded]

def defaultName : String := bare.name

def names : List String :=
  presets.map Style.name

def preset? (name : String) : Option Style :=
  presets.find? (·.name == name)

/-- The preset `name`, widened. A wrong name is reported before a wrong spacing. -/
def resolve (name : String) (spacing : Int) : Except StyleError Style :=
  match preset? name with
  | none => .error (.unknown name)
  | some s => s.padded spacing

end Style

def StyleError.message : StyleError → String
  | unknown name =>
    "unknown tree style " ++ Text.quoted name
      ++ " (available: " ++ String.intercalate ", " Style.names ++ ")"
  | negativeSpacing => "spacing must be >= 0"

end Outliner

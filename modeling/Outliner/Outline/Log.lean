import Outliner.Outline.Build

/-!
# The log of an outline

For every declaration the log tells under which node it was put, and before that, if the placement
is stranded, that the root had to stand in.
-/

namespace Outliner

inductive LogEntry where
  | stranded (declaration : Declaration)
  | attached (declaration parent : Declaration)
deriving DecidableEq, Repr

namespace LogEntry

def message : LogEntry → String
  | stranded d =>
    s!"no enclosing node for indent {d.indent} at line {d.line}; attaching "
      ++ d.describe ++ " to root"
  | attached d parent => d.kind.label ++ " " ++ d.describe ++ " added to " ++ parent.describe

def ofPlacement (ds : List Declaration) (d : Declaration) (p : Placement) : List LogEntry :=
  let parent := match p.parent? with
    | none => .root
    | some position => ds.getD position .root
  (if p.stranded then [stranded d] else []) ++ [attached d parent]

end LogEntry

namespace Declaration

/-- The log entries of the outline of `ds`, in source order. -/
def log (ds : List Declaration) : List LogEntry :=
  (ds.zip (placements ds)).flatMap fun d => LogEntry.ofPlacement ds d.1 d.2

end Declaration

end Outliner

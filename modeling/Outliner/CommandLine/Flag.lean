/-!
# The options of the command

Each `Flag` has one or two spellings; a long one may be cut short as long as no other option begins
in the same way.
-/

namespace Outliner.CommandLine

inductive Flag where
  | help
  | style
  | spacing
  | flat
  | hideRoot
  | depth
  | line
  | markers
  | language
  | theme
  | noColor
  | save
  | verbose
deriving DecidableEq, Repr

namespace Flag

/-- In the order in which they are documented. -/
def all : List Flag :=
  [help, style, spacing, flat, hideRoot, depth, line, markers, language, theme, noColor, save,
   verbose]

def spellings : Flag → List String
  | help => ["-h", "--help"]
  | style => ["--style"]
  | spacing => ["--spacing"]
  | flat => ["--flat"]
  | hideRoot => ["--hide-root"]
  | depth => ["--depth"]
  | line => ["--line"]
  | markers => ["--markers"]
  | language => ["--language"]
  | theme => ["--theme"]
  | noColor => ["--no-color"]
  | save => ["--save"]
  | verbose => ["-v", "--verbose"]

def takesValue : Flag → Bool
  | style | spacing | depth | line | language | theme => true
  | help | flat | hideRoot | markers | noColor | save | verbose => false

def title (f : Flag) : String :=
  String.intercalate "/" f.spellings

def spelled : List (String × Flag) :=
  all.flatMap fun f => f.spellings.map (·, f)

def ofSpelling? (s : String) : Option Flag :=
  spelled.lookup s

end Flag

end Outliner.CommandLine

import Outliner.Line
import Outliner.Text.Quoted

/-!
# Languages

A `Language` is a language whose lines can be classified. `Language.ofName` also takes the names
that are in use for its dialects.
-/

namespace Outliner

inductive Language where
  | python
deriving DecidableEq, Repr

/-- A name that no language goes by. -/
structure UnsupportedLanguage where
  name : String
deriving DecidableEq, Repr

namespace Language

def name : Language → String
  | python => "python"

def all : List Language :=
  [python]

def aliases : Language → List String
  | python => ["py", "python3", "py3", "python2", "py2", "sage", "bazel", "starlark"]

def ofName (name : String) : Except UnsupportedLanguage Language :=
  match all.find? fun l => l.name == name || l.aliases.contains name with
  | some l => .ok l
  | none => .error ⟨name⟩

def item? : Language → List Char → Option Item
  | python => Line.item?

end Language

def UnsupportedLanguage.message (e : UnsupportedLanguage) : String :=
  "No outline matcher configured for " ++ Text.quoted e.name
    ++ " (supported: " ++ String.intercalate ", " (Language.all.map Language.name) ++ ")."

end Outliner

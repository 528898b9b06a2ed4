import Outliner.Language
import Outliner.Path
import Outliner.Text.Lower
import Outliner.Text.Pieces

/-!
# Finding the language of a file

`Language.ofFile?` looks at the suffix of the path. Where that says nothing it asks a library of
lexers, first about the name of the file and then, if the source begins with `#!`, about its first
line. Of the names of a lexer the first one that a language goes by counts.
-/

namespace Outliner

/-- A library of lexers for many languages. It answers with the names of the lexer that it finds. -/
structure Lexers where
  /-- by the name of a file -/
  forFileName : String → Option (List String)
  /-- by the looks of a text -/
  forText : String → Option (List String)

namespace Language

/-- The suffixes, in lower case, that settle the language. -/
def suffixes : Language → List String
  | python => [".py", ".pyi", ".pyw"]

def ofSuffix? (suffix : String) : Option Language :=
  all.find? fun l => l.suffixes.contains (Text.lower suffix)

def ofLexer? (names : List String) : Option Language :=
  names.findSome? fun name => (ofName name).toOption

def ofFirstLine? (lexers : Lexers) (line : List Char) : Option Language :=
  if "#!".toList.isPrefixOf line then
    (lexers.forText (String.ofList line)).bind ofLexer?
  else none

def ofFile? (lexers : Lexers) (path : Path) (source : String) : Option Language :=
  ((ofSuffix? path.suffix).or ((lexers.forFileName path.name).bind ofLexer?)).or
    (ofFirstLine? lexers ((Text.lines source).headD []))

end Language

end Outliner

/-!
# Lower case

`lower` maps the characters whose lower case is an ASCII letter and leaves all others alone. That is
enough to compare a text with an ASCII name without regard to case.
-/

namespace Outliner.Text

/-- The capital letters of ASCII and the Kelvin sign have an ASCII lower case. -/
def lowerChar (c : Char) : Char :=
  if c = '\u212a' then 'k' else c.toLower

def lower (s : String) : String :=
  s.map lowerChar

end Outliner.Text

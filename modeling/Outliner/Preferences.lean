import Outliner.Json.Reader
import Outliner.Json.Writer
import Outliner.Text.Blank

/-!
# Preferences

The preferred style, spacing and theme are members of a JSON object in a file. Reading never fails:
a file that cannot be read or holds no object counts as an empty object, and a member of the wrong
type counts as missing. Saving keeps the other members, and does nothing where no file can be
written.
-/

namespace Outliner

/-- What lies at the place of the preference file. -/
inductive PreferenceFile where
  | absent
  | file (bytes : ByteArray)
  | directory
  /-- a file lies where the directory of the preference file belongs -/
  | blocked

namespace PreferenceFile

def load : PreferenceFile → Members
  | file bytes =>
    match (String.fromUTF8? bytes).bind Json.parse with
    | some (.obj ms) => ms
    | _ => []
  | absent | directory | blocked => []

def save (ms : Members) : PreferenceFile → PreferenceFile
  | absent | file _ => file ((Json.obj ms).write ++ "\n").toUTF8
  | directory => directory
  | blocked => blocked

/-! ### Names -/

/-- The name stored under `key`: a string that holds more than blanks, without those around it. -/
def loadName (p : PreferenceFile) (key : String) : Option String :=
  match p.load.get? key with
  | some (.str s) => if Text.trim s == "" then none else some (Text.trim s)
  | _ => none

def saveName (key name : String) (p : PreferenceFile) : PreferenceFile :=
  if Text.trim name == "" then p else p.save (p.load.put key (.str (Text.trim name)))

def styleKey : String := "style"

def themeKey : String := "theme"

def spacingKey : String := "spacing"

def loadStyle (p : PreferenceFile) : Option String := p.loadName styleKey

def saveStyle (name : String) (p : PreferenceFile) : PreferenceFile := p.saveName styleKey name

def loadTheme (p : PreferenceFile) : Option String := p.loadName themeKey

def saveTheme (name : String) (p : PreferenceFile) : PreferenceFile := p.saveName themeKey name

/-! ### Spacing -/

def loadSpacing (p : PreferenceFile) : Option Nat :=
  match p.load.get? spacingKey with
  | some (.int n) => if n < 0 then none else some n.toNat
  | _ => none

def saveSpacing (n : Int) (p : PreferenceFile) : PreferenceFile :=
  if n < 0 then p else p.save (p.load.put spacingKey (.int n))

end PreferenceFile

/-! ### Saves -/

/-- One of the calls that save a preference. -/
inductive Save where
  | style (name : String)
  | theme (name : String)
  | spacing (n : Int)
deriving DecidableEq, Repr

def Save.run : Save → PreferenceFile → PreferenceFile
  | style name => PreferenceFile.saveStyle name
  | theme name => PreferenceFile.saveTheme name
  | spacing n => PreferenceFile.saveSpacing n

end Outliner

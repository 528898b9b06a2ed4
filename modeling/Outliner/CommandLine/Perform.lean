import Outliner.CommandLine.Run

/-!
# Performing the command

`perform` gathers the environment of the command, runs it, and puts its outcome into effect. What
lies at a place of the file system is told by trying to read it.
-/

namespace Outliner.CommandLine

def directoryError : UInt32 := 21

def lookAt (path : String) : IO Found := do
  try
    return .file (← IO.FS.readBinFile path)
  catch
    | .inappropriateType _ code _ => return if code == directoryError then .directory else .missing
    | _ => return .missing

def preferenceDirectory : IO String := do
  let directory ← match ← IO.getEnv "XDG_CONFIG_HOME" with
    | some directory => pure directory
    | none => pure (((← IO.getEnv "HOME").getD "") ++ "/.config")
  return directory ++ "/" ++ program

def preferenceFile (directory : String) : String :=
  directory ++ "/config.json"

def loadPreferences (directory : String) : IO PreferenceFile := do
  try
    return .file (← IO.FS.readBinFile (preferenceFile directory))
  catch
    | .inappropriateType _ code _ => return if code == directoryError then .directory else .blocked
    | _ => return .absent

def changed? : PreferenceFile → PreferenceFile → Option ByteArray
  | .file old, .file new => if old.data == new.data then none else some new
  | _, .file new => some new
  | _, _ => none

/-- Writes a preference file that has changed. Where it cannot be written it stays as it was. -/
def storePreferences (directory : String) (old new : PreferenceFile) : IO Unit := do
  if let some bytes := changed? old new then
    try
      IO.FS.createDirAll directory
      IO.FS.writeBinFile (preferenceFile directory) bytes
    catch _ => return

def readInput : IO String := do
  let bytes ← (← IO.getStdin).readBinToEnd
  return (String.fromUTF8? bytes).getD (Text.ofBytes bytes)

def gather (lexers : Lexers) (release : Release) (path : String) (preferences : PreferenceFile) :
    IO Environment := do
  let found ← if path = standardInput then pure .missing else lookAt path
  return {
    find := fun _ => found
    input := ← if path = standardInput then readInput else pure ""
    terminal := ← (← IO.getStdout).isTty
    preferences, lexers, release }

/-- Runs the command with a library of lexers and a release of the option parser, and returns the
code that it exits with. -/
def perform (lexers : Lexers) (release : Release) (arguments : List String) : IO UInt32 := do
  let directory ← preferenceDirectory
  let preferences ← loadPreferences directory
  let path := match Arguments.read release arguments with
    | .ok a => a.path
    | .error _ => ""
  let outcome := (← gather lexers release path preferences).run arguments
  storePreferences directory preferences outcome.preferences
  (← IO.getStdout).putStr outcome.output
  (← IO.getStderr).putStr (outcome.errors ++ (outcome.message?.map (· ++ "\n")).getD "")
  return outcome.ending.code.toUInt32

end Outliner.CommandLine

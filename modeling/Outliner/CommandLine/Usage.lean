import Outliner.CommandLine.Flag
import Outliner.Text.Quoted

/-!
# Usage

The usage and help texts of the command, and what can be wrong with its arguments.
-/

namespace Outliner.CommandLine

def program : String := "outlinebar"

def unlines (lines : List String) : String :=
  String.join (lines.map (· ++ "\n"))

def usage : String :=
  unlines [
    "usage: outlinebar [-h] [--style STYLE] [--spacing SPACING] [--flat]",
    "                  [--hide-root] [--depth DEPTH] [--line LINE] [--markers]",
    "                  [--language LANGUAGE] [--theme THEME] [--no-color] [--save]",
    "                  [-v]",
    "                  path"]

def help : String :=
  usage ++ unlines [
    "",
    "Print a class/function/variable outline of a source file as a tree.",
    "",
    "positional arguments:",
    "  path                 Path to source file ('-' reads standard input).",
    "",
    "options:",
    "  -h, --help           show this help message and exit",
    "  --style STYLE        Tree glyph style (ascii, bare, box, rounded).",
    "  --spacing SPACING    Extra fill characters added after each glyph.",
    "  --flat               Print the nested tree instead of",
    "                       Classes/Functions/Variables buckets.",
    "  --hide-root          Omit the root row in --flat mode.",
    "  --depth DEPTH        Collapse declarations nested at this depth or deeper.",
    "  --line LINE          Highlight the declaration enclosing this source line.",
    "  --markers            Prefix labels with a kind marker (C, f, v).",
    "  --language LANGUAGE  Language key, overriding detection from the file name.",
    "  --theme THEME        UI theme name (default, ocean).",
    "  --no-color           Disable color output even on TTY.",
    "  --save               Persist the chosen style, spacing, and theme as",
    "                       defaults.",
    "  -v, --verbose        Enable verbose (debug) output."]

inductive UsageError where
  | ambiguous (argument : String) (spellings : List String)
  | missingValue (flag : Flag)
  | unexpectedValue (flag : Flag) (value : String)
  | notAnInteger (flag : Flag) (value : String)
  | tooSmall (flag : Flag) (least : Nat)
  | missingPath
  | unrecognized (arguments : List String)
deriving DecidableEq, Repr

namespace UsageError

def about (flag : Flag) (text : String) : String :=
  "argument " ++ flag.title ++ ": " ++ text

def message : UsageError → String
  | ambiguous argument spellings =>
    "ambiguous option: " ++ argument ++ " could match " ++ String.intercalate ", " spellings
  | missingValue flag => about flag "expected one argument"
  | unexpectedValue flag value =>
    about flag ("ignored explicit argument " ++ Text.quoted value)
  | notAnInteger flag value => about flag ("invalid integer value: " ++ Text.quoted value)
  | tooSmall flag least => about flag ("value must be >= " ++ toString least)
  | missingPath => "the following arguments are required: path"
  | unrecognized arguments =>
    "unrecognized arguments: " ++ String.intercalate " " arguments

/-- What is printed for the error. -/
def report (e : UsageError) : String :=
  usage ++ program ++ ": error: " ++ e.message ++ "\n"

end UsageError

end Outliner.CommandLine

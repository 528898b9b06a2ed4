import Outliner.CommandLine.Usage
import Outliner.Text.Digit

/-!
# Telling options from plain arguments

`Token.ofArguments` decides for every argument, before any of them takes effect, whether it is an
option. An argument that begins with a dash is one, known or not, unless it is the dash alone, looks
like a negative number, or holds a space and names no option. Behind `--` all arguments are plain.
-/

namespace Outliner.CommandLine

/-- A text that is attached to an option, behind an equals sign or directly as in `-vh`. -/
inductive Attached where
  | assigned (text : String)
  | joined (text : String)
deriving DecidableEq, Repr

def Attached.text : Attached → String
  | assigned text | joined text => text

inductive Token where
  | option (flag : Flag) (spelling : String) (value? : Option Attached)
  | unknown (argument : String)
  | plain (argument : String)
  | terminator
deriving DecidableEq, Repr

namespace Token

open Text

def splitValue (argument : String) : String × Option Attached :=
  let cs := argument.toList
  (String.ofList (cs.takeWhile (· ≠ '=')),
    match cs.dropWhile (· ≠ '=') with
    | _ :: value => some (.assigned (String.ofList value))
    | [] => none)

/-- The options that the argument may stand for: those that a long option begins, or the one-letter
option that begins the argument, with the rest attached. -/
def candidates (argument : String) : List (String × Flag × Option Attached) :=
  match argument.toList with
  | '-' :: '-' :: _ =>
    let (start, value?) := splitValue argument
    (Flag.spelled.filter fun s => start.toList.isPrefixOf s.1.toList).map fun s =>
      (s.1, s.2, value?)
  | '-' :: c :: rest =>
    (Flag.spelled.filter fun s => s.1.toList == ['-', c]).map fun s =>
      (s.1, s.2, some (.joined (String.ofList rest)))
  | _ => []

def isNumeral (cs : List Char) : Bool :=
  !cs.isEmpty && cs.all isDecimal

/-- Whether the argument is a dash and digits, perhaps with a point and then digits behind it. One
line feed at the end is overlooked. -/
def looksNegative (argument : String) : Bool :=
  match argument.toList with
  | '-' :: cs =>
    let cs := if cs.getLast? = some '\n' then cs.dropLast else cs
    isNumeral cs ||
      match cs.dropWhile isDecimal with
      | '.' :: ds => isNumeral ds
      | _ => false
  | _ => false

def spelledOut? (argument : String) : Option Token :=
  match Flag.ofSpelling? argument with
  | some flag => some (option flag argument none)
  | none =>
    match splitValue argument with
    | (spelling, some value) =>
      (Flag.ofSpelling? spelling).map fun flag => option flag spelling (some value)
    | (_, none) => none

def ofArgument (argument : String) : Except UsageError Token :=
  if argument.toList.head? ≠ some '-' ∨ argument = "-" then .ok (plain argument)
  else
    match spelledOut? argument with
    | some t => .ok t
    | none =>
      match candidates argument with
      | [] =>
        if looksNegative argument || argument.toList.contains ' ' then .ok (plain argument)
        else .ok (unknown argument)
      | [(spelling, flag, value?)] => .ok (option flag spelling value?)
      | cs => .error (.ambiguous argument (cs.map Prod.fst))

def ofArguments : List String → Except UsageError (List Token)
  | [] => .ok []
  | argument :: arguments =>
    if argument = "--" then .ok (terminator :: arguments.map plain)
    else do return (← ofArgument argument) :: (← ofArguments arguments)

end Token

end Outliner.CommandLine

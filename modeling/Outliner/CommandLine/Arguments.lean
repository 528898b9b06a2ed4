import Outliner.CommandLine.Token
import Outliner.Text.Integer

/-!
# Reading the arguments

`Arguments.read` goes through the tokens from left to right. The first plain argument is the path;
later ones are left over, like options that are not known. A bad value and a request for help stop
the reading at once, a missing path is reported at the end, and arguments left over come last.
-/

namespace Outliner.CommandLine

/-- The option parser comes in releases. The older one drops a value `--` that is attached to an
option, and stops at letters behind a one-letter option that name no options themselves. -/
inductive Release where
  | older
  | newer
deriving DecidableEq, Repr

inductive Given (α : Type) where
  | absent
  /-- the option is there, and its value was dropped -/
  | dropped
  | value (a : α)
deriving DecidableEq, Repr

namespace Given

variable {α : Type}

def ofOption : Option α → Given α
  | none => dropped
  | some a => value a

def toOption : Given α → Option α
  | absent | dropped => none
  | value a => some a

end Given

/-- The values of the options; the last of repeated options counts. -/
structure Options where
  style? : Given String
  spacing? : Given Nat
  flat : Bool
  hideRoot : Bool
  depth? : Given Nat
  line? : Given Nat
  markers : Bool
  language? : Given String
  theme? : Given String
  noColor : Bool
  save : Bool
  verbose : Bool
deriving DecidableEq, Repr

def Options.unset : Options where
  style? := .absent
  spacing? := .absent
  flat := false
  hideRoot := false
  depth? := .absent
  line? := .absent
  markers := false
  language? := .absent
  theme? := .absent
  noColor := false
  save := false
  verbose := false

structure Arguments where
  path : String
  options : Options
deriving DecidableEq, Repr

inductive Stop where
  | help
  | error (e : UsageError)
deriving DecidableEq, Repr

/-- What was read so far. -/
structure Reading where
  path? : Option String
  options : Options
  leftOver : List String

namespace Options

def number (flag : Flag) (least : Nat) (value : String) : Except Stop Nat :=
  match Text.integer? value with
  | none => .error (.error (.notAnInteger flag value))
  | some n => if n < least then .error (.error (.tooSmall flag least)) else .ok n.toNat

/-- The effect of an option that takes a value, with the value that is left of it. -/
def set (o : Options) (flag : Flag) (value? : Option String) : Except Stop Options :=
  match flag with
  | .style => .ok { o with style? := .ofOption value? }
  | .spacing => do return { o with spacing? := .ofOption (← value?.mapM (number flag 0)) }
  | .depth => do return { o with depth? := .ofOption (← value?.mapM (number flag 0)) }
  | .line => do return { o with line? := .ofOption (← value?.mapM (number flag 1)) }
  | .language => .ok { o with language? := .ofOption value? }
  | .theme => .ok { o with theme? := .ofOption value? }
  | .help | .flat | .hideRoot | .markers | .noColor | .save | .verbose => .ok o

def switch (o : Options) (flag : Flag) : Except Stop Options :=
  match flag with
  | .help => .error .help
  | .flat => .ok { o with flat := true }
  | .hideRoot => .ok { o with hideRoot := true }
  | .markers => .ok { o with markers := true }
  | .noColor => .ok { o with noColor := true }
  | .save => .ok { o with save := true }
  | .verbose => .ok { o with verbose := true }
  | .style | .spacing | .depth | .line | .language | .theme => .ok o

end Options

namespace Release

def attachedValue? (release : Release) (text : String) : Option String :=
  if release = older ∧ text = "--" then none else some text

/-- What is left over of letters behind `flag` that name no option. -/
def stray (release : Release) (flag : Flag) (letters : List Char) : Except Stop (List String) :=
  match release, letters with
  | newer, '=' :: value => .error (.error (.unexpectedValue flag (String.ofList value)))
  | newer, '-' :: _ | older, _ => .error (.error (.unexpectedValue flag (String.ofList letters)))
  | newer, _ => .ok [String.ofList ('-' :: letters)]

/-- The one-letter options that are written together, the first of them `flag`, and what is left
over. -/
def bundle (release : Release) (flag : Flag) : List Char → Except Stop (List Flag × List String)
  | [] => .ok ([flag], [])
  | c :: cs =>
    match Flag.ofSpelling? (String.ofList ['-', c]) with
    | some next => do
      let (flags, left) ← release.bundle next cs
      return (flag :: flags, left)
    | none => do return ([flag], ← release.stray flag (c :: cs))

def mayContinue (release : Release) (spelling : String) : Attached → Bool
  | .assigned text => release = older && text ≠ "" && !"--".toList.isPrefixOf spelling.toList
  | .joined text => text ≠ "" && !"--".toList.isPrefixOf spelling.toList

def switches (release : Release) (flag : Flag) (spelling : String) :
    Option Attached → Except Stop (List Flag × List String)
  | none => .ok ([flag], [])
  | some attached =>
    if release.mayContinue spelling attached then release.bundle flag attached.text.toList
    else .error (.error (.unexpectedValue flag attached.text))

end Release

namespace Reading

def readTokens (release : Release) (r : Reading) : List Token → Except Stop Reading
  | [] => .ok r
  | .option flag spelling value? :: ts =>
    if flag.takesValue then
      match value?, ts with
      | some value, ts => do
        let options ← r.options.set flag (release.attachedValue? value.text)
        readTokens release { r with options } ts
      | none, .plain value :: ts => do
        let options ← r.options.set flag value
        readTokens release { r with options } ts
      | none, _ => .error (.error (.missingValue flag))
    else do
      let (flags, left) ← release.switches flag spelling value?
      let options ← flags.foldlM Options.switch r.options
      readTokens release { r with options, leftOver := r.leftOver ++ left } ts
  | .unknown argument :: ts =>
    readTokens release { r with leftOver := r.leftOver ++ [argument] } ts
  | .plain argument :: ts =>
    match r.path?, ts with
    | none, .terminator :: ts => readTokens release { r with path? := argument } ts
    | none, ts => readTokens release { r with path? := argument } ts
    | some _, ts => readTokens release { r with leftOver := r.leftOver ++ [argument] } ts
  | .terminator :: ts =>
    match r.path?, ts with
    | none, .plain argument :: ts => readTokens release { r with path? := argument } ts
    | _, ts => readTokens release { r with leftOver := r.leftOver ++ ["--"] } ts

end Reading

def Arguments.read (release : Release) (arguments : List String) : Except Stop Arguments := do
  let tokens ← (Token.ofArguments arguments).mapError Stop.error
  let r ← Reading.readTokens release ⟨none, .unset, []⟩ tokens
  match r.path? with
  | none => .error (.error .missingPath)
  | some path =>
    if r.leftOver.isEmpty then return ⟨path, r.options⟩
    else .error (.error (.unrecognized r.leftOver))

end Outliner.CommandLine

import Outliner.CommandLine.Arguments
import Outliner.Detection
import Outliner.Navbar
import Outliner.Navigation
import Outliner.Outline.Log
import Outliner.Preferences
import Outliner.Text.Decode
import Outliner.Theme

/-!
# Running the command

`Environment.run` says what the command does in a given environment: how it ends, what it prints, and
what it leaves in the preference file. `Environment.act` takes its steps one after the other, and a
step that fails ends the command without undoing those before it. All that can be refused comes
first: the arguments, the file, its language and the style, in this order. Only then are preferences
saved and the outline made.
-/

namespace Outliner.CommandLine

inductive Found where
  | missing
  | directory
  | file (bytes : ByteArray)

structure Environment where
  find : Path → Found
  input : String
  /-- whether the output goes to a terminal -/
  terminal : Bool
  preferences : PreferenceFile
  lexers : Lexers
  release : Release

/-! ### How a command ends -/

inductive Failure where
  | pathNotFound (path : Path)
  | notAFile
  | unknownLanguage (path : Path)
  | unsupportedLanguage (e : UnsupportedLanguage)
  | style (e : StyleError)
deriving DecidableEq, Repr

def Failure.message : Failure → String
  | pathNotFound path => "Path not found: " ++ path.toString
  | notAFile => "Outline is available for files only."
  | unknownLanguage path =>
    "No outline matcher configured for "
      ++ (if path.suffix == "" then path.name else path.suffix) ++ "."
  | unsupportedLanguage e => e.message
  | style e => e.message

/-- What ends a command before it is done. A crash is an error that nothing expects: the command
computes with a value that was dropped, or the stack of its interpreter overflows. -/
inductive Halt where
  | failure (e : Failure)
  | crash
deriving DecidableEq, Repr

/-- The stages of a command that go as deep as a preference file or an outline is nested. -/
inductive Stage where
  | loadStyle
  | loadSpacing
  | save (s : Save)
  | loadTheme
  | sort
  | count
  | draw
deriving DecidableEq, Repr

def Stage.pass (overflows : Stage → Bool) (s : Stage) : Except Halt Unit :=
  if overflows s then .error .crash else .ok ()

/-! ### What to outline -/

/-- Where the source comes from, and its text. No path stands for the standard input. -/
structure Source where
  path? : Option Path
  text : String
deriving DecidableEq, Repr

def standardInput : String := "-"

def Environment.source (env : Environment) (path : String) : Except Failure Source :=
  if path = standardInput then
    .ok ⟨none, String.ofList (Text.unifyLineEnds env.input.toList)⟩
  else
    let path := Path.ofString path
    match env.find path with
    | .missing => .error (.pathNotFound path)
    | .directory => .error .notAFile
    | .file bytes => .ok ⟨path, Text.decode bytes⟩

/-- The name of the language: the one that was asked for, or else the one that is found. -/
def Source.languageName (s : Source) (lexers : Lexers) (o : Options) : Except Halt String :=
  match o.language?, s.path? with
  | .value name, _ => .ok name
  | .dropped, _ => .error .crash
  | .absent, none => .ok Language.python.name
  | .absent, some path =>
    match Language.ofFile? lexers path s.text with
    | some l => .ok l.name
    | none => .error (.failure (.unknownLanguage path))

/-! ### How to show it -/

/-- A name that is given and not empty. -/
def given? (name : Given String) : Option String :=
  name.toOption.filter (· ≠ "")

structure Look where
  style : String
  spacing : Nat
deriving DecidableEq, Repr

def Look.check (look : Look) : Except Halt Look := do
  let _ ← (Style.resolve look.style look.spacing).mapError fun e => .failure (.style e)
  return look

namespace Options

def chooseStyle (o : Options) (overflows : Stage → Bool) (p : PreferenceFile) :
    Except Halt String :=
  match given? o.style? with
  | some name => .ok name
  | none => do
    Stage.loadStyle.pass overflows
    return p.loadStyle.getD Style.defaultName

/-- The look that was asked for, or else the one that is preferred. A wrong style is reported before
the command computes with the spacing. -/
def chooseLook (o : Options) (overflows : Stage → Bool) (p : PreferenceFile) :
    Except Halt Look := do
  let style ← o.chooseStyle overflows p
  match o.spacing? with
  | .value n => Look.check ⟨style, n⟩
  | .absent => do
    Stage.loadSpacing.pass overflows
    Look.check ⟨style, p.loadSpacing.getD 0⟩
  | .dropped => do
    let _ ← Look.check ⟨style, 0⟩
    .error .crash

def saves (o : Options) (look : Look) : List Save :=
  if o.save then
    .style look.style :: .spacing look.spacing :: (given? o.theme?).toList.map .theme
  else []

def chooseTheme (o : Options) (overflows : Stage → Bool) (terminal : Bool) (p : PreferenceFile) :
    Except Halt Theme :=
  match given? o.theme? with
  | some name => .ok (.resolve (some name) (o.noColor || !terminal))
  | none => do
    Stage.loadTheme.pass overflows
    return .resolve p.loadTheme (o.noColor || !terminal)

def label (o : Options) (t : Theme) : Node → String :=
  t.label (if o.markers then Node.markedName else Node.name)

/-! ### The outline -/

def outline (o : Options) (ds : List Declaration) : Except Halt Forest :=
  let f := Forest.empty.addOutline ds
  match o.depth? with
  | .absent => .ok f
  | .value depth => .ok (f.collapseBelow Forest.empty.size depth)
  | .dropped => .error .crash

def rows (o : Options) (f : Forest) (look : Look) (label : Node → String) :
    Except StyleError (List Row) :=
  if o.flat then
    (Style.resolve look.style look.spacing).map fun s =>
      (f.tree Forest.empty.size).render s label o.hideRoot
  else (f.renderNavbar Forest.empty.size look.style look.spacing label).1

/-- The row to highlight. Lines are compared with the line that was asked for only if there are any. -/
def selected? (o : Options) (rows : List Row) : Except Halt (Option Nat) :=
  match o.line? with
  | .absent => .ok none
  | .value line => .ok (rowIndexForLine rows line)
  | .dropped => if rows.any fun row => 1 ≤ row.line then .error .crash else .ok none

end Options

/-! ### The command -/

structure Plan where
  source : Source
  languageName : String
  language : Language
  look : Look

def Plan.declarations (plan : Plan) : List Declaration :=
  Outliner.declarations plan.language.item? plan.source.text

def Plan.summary (plan : Plan) : String :=
  s!"outlined {plan.declarations.length} declarations as {plan.languageName}"

def Environment.plan (env : Environment) (overflows : Stage → Bool) (a : Arguments) :
    Except Halt Plan := do
  let source ← (env.source a.path).mapError .failure
  let languageName ← source.languageName env.lexers a.options
  let language ← (Language.ofName languageName).mapError fun e => .failure (.unsupportedLanguage e)
  let look ← a.options.chooseLook overflows env.preferences
  return { source, languageName, language, look }

def Plan.text (plan : Plan) (overflows : Stage → Bool) (o : Options) (theme : Theme) :
    Except Halt String := do
  let f ← o.outline plan.declarations
  Stage.draw.pass overflows
  let rows ← (o.rows f plan.look (o.label theme)).mapError fun e => .failure (.style e)
  let selected? ← o.selected? rows
  return theme.print rows (selected?.map Int.ofNat)

structure Effects where
  output : String
  log : List String
  preferences : PreferenceFile

/-- Steps that may end the command and that have effects, which stay whatever comes after them. -/
abbrev Command := ExceptT Halt (StateM Effects)

def Command.ofExcept {α : Type} (x : Except Halt α) : Command α :=
  ExceptT.mk (pure x)

def Command.save (overflows : Stage → Bool) (s : Save) : Command Unit := do
  ofExcept ((Stage.save s).pass overflows)
  modify fun done => { done with preferences := s.run done.preferences }

def Command.log (o : Options) (lines : List String) : Command Unit :=
  modify fun done => { done with log := done.log ++ if o.verbose then lines else [] }

def Environment.act (env : Environment) (overflows : Stage → Bool) (a : Arguments) :
    Command Unit := do
  let o := a.options
  let plan ← .ofExcept (env.plan overflows a)
  -- nothing is refused from here on
  (o.saves plan.look).forM (Command.save overflows)
  let theme ← .ofExcept (o.chooseTheme overflows env.terminal (← get).preferences)
  Command.log o ((Declaration.log plan.declarations).map LogEntry.message)
  .ofExcept (Stage.sort.pass overflows)
  .ofExcept (Stage.count.pass overflows)
  Command.log o [plan.summary]
  let text ← .ofExcept (plan.text overflows o theme)
  modify fun done => { done with output := done.output ++ text }

def Environment.start (env : Environment) : Effects :=
  ⟨"", [], env.preferences⟩

inductive Ending where
  | exit (code : Nat)
  | crash
deriving DecidableEq, Repr

def Ending.code : Ending → Nat
  | exit code => code
  | crash => 1

structure Outcome where
  ending : Ending
  /-- the last words of a command that is refused -/
  message? : Option String
  output : String
  errors : String
  preferences : PreferenceFile

def Effects.outcome (done : Effects) : Except Halt Unit → Outcome
  | .ok () => ⟨.exit 0, none, done.output, unlines done.log, done.preferences⟩
  | .error (.failure e) => ⟨.exit 1, e.message, done.output, unlines done.log, done.preferences⟩
  | .error .crash => ⟨.crash, none, done.output, unlines done.log, done.preferences⟩

/-- For an interpreter whose stack never overflows. -/
def noOverflow : Stage → Bool :=
  fun _ => false

def Environment.run (env : Environment) (arguments : List String) : Outcome :=
  match Arguments.read env.release arguments with
  | .error .help => ⟨.exit 0, none, help, "", env.preferences⟩
  | .error (.error e) => ⟨.exit 2, none, "", e.report, env.preferences⟩
  | .ok a =>
    let (result, done) := (env.act noOverflow a).run.run env.start
    done.outcome result

end Outliner.CommandLine

import PlanConstraints.CommandLine.Options
import PlanConstraints.Compile.Modes
import PlanConstraints.Parameter
import PlanConstraints.Program.Basic
import PlanConstraints.Property.File
import PlanConstraints.Task.Reader
import PlanConstraints.Task.Written
import PlanConstraints.World.Declarations
import PlanConstraints.World.DomainFile

set_option autoImplicit false

/-!
# Command line: running the program

The program reads the objects of a problem, the properties and a task, compiles the properties into
the task and prints it or writes it to a file; or it writes the property files for pairs of
properties.  The run is a function of the arguments, the environment and the files, and its result
is what is printed and the files as they are afterwards.
-/

namespace PlanConstraints.CommandLine

/-- The variables of the environment. -/
abbrev Environment := String → EnvValue

/-- Causes for which a run fails. -/
inductive RunError where
  | domainWithoutProblem
  | noProblem (path : String)
  /-- No domain is given, and none is found. -/
  | noDomain (error : DomainFile.SearchError)
  | file (error : FileError)
  | world (error : World.ReadError)
  | properties (error : PropertyFile.FileError)
  | noTask
  | task (error : TaskFile.FileError)
  | exclusivity (error : Exclusivity.Failure)
  | compile (error : CompileError)

def RunError.toMessage : RunError → Message
  | domainWithoutProblem => .ofTitle "a domain was given without its problem (--problem)"
  | noProblem path => .ofTitle ("Problem file " ++ path ++ " does not exist")
  | noDomain _ =>
    .ofTitle
      ("Unable to automatically find the domain file. Consider specifying the domain with the "
      ++ "option -d/--domain")
  | file error => .ofTitle error.message
  | world error => error.toMessage
  | properties error => error.toMessage
  | noTask => .ofTitle "a planning task (--sas) is required to compile the properties"
  | task error => error.toMessage
  | exclusivity error => .ofTitle error.message
  | compile error => error.toMessage

/-! ## Inputs -/

def readInput (files : FileTree) (path : String) : Except RunError Input :=
  match files.read path with
  | .error e => .error (.file e)
  | .ok text => .ok ⟨text, some path⟩

def domainOf (o : Options) (files : FileTree) (problem : String) : Except RunError String :=
  match o.domain with
  | some domain => .ok domain
  | none =>
    match DomainFile.find files problem with
    | .ok domain => .ok domain
    | .error e => .error (.noDomain e)

/-- The types and objects of the problem, if one is given. -/
def readWorld (o : Options) (files : FileTree) : Except RunError World :=
  match o.problem with
  | none => if o.domain.isSome then .error .domainWithoutProblem else .ok .empty
  | some problem =>
    if !files.contains problem then .error (.noProblem problem)
    else
      match domainOf o files problem with
      | .error e => .error e
      | .ok domain =>
        match readInput files domain, readInput files problem with
        | .error e, _ | _, .error e => .error e
        | .ok domain, .ok problem =>
          match World.ofInputs (some domain) problem with
          | .error e => .error (.world e)
          | .ok w => .ok w

def readProperties (o : Options) (files : FileTree) : Except RunError PropertySet :=
  match readWorld o files with
  | .error e => .error e
  | .ok w =>
    match readInput files o.properties with
    | .error e => .error e
    | .ok input =>
      match PropertyFile.read w o.dialect input with
      | .error e => .error (.properties e)
      | .ok set => .ok set

/-- The task.  None is needed where only files for pairs of properties are written. -/
def readTask (o : Options) (files : FileTree) : Except RunError Task :=
  match o.sas with
  | none => if o.exclusivityFolder.isSome then .ok .empty else .error .noTask
  | some path =>
    match readInput files path with
    | .error e => .error e
    | .ok input =>
      match TaskFile.read input with
      | .error e => .error (.task e)
      | .ok t => .ok t

/-! ## Running -/

def settingOf (env : Environment) (p : Parameter String) : String :=
  match p.get (env p.variableName) with
  | .ok (value, _) => value
  | .error e => e.default

def compileOptions (o : Options) (env : Environment) : CompileOptions where
  addGoals := o.goals
  negativeActions := o.negativeActions
  auxiliaryVariables := o.auxiliaryVariables
  acceptance := o.acceptance
  softMark := settingOf env softMark

/-- The program that the environment asks for as a translator. -/
def translator (env : Environment) (run : Runner) (programEnvironment : List (Bytes × Bytes)) :
    TranslatorProgram where
  run := run
  program := settingOf env translatorProgram
  flag := settingOf env translatorFlag
  environment := programEnvironment

/-- The automata of properties, translated one after the other up to the first error, and the files
that the program leaves. -/
def automataOf (program : TranslatorProgram) (files : FileTree) :
    List Property → FileTree × Except CompileError (List (Automaton Symbol))
  | [] => (files, .ok [])
  | p :: ps =>
    match genericFormula p with
    | .error e => (files, .error e)
    | .ok formula =>
      let (after, answer) := program.translate files formula
      match automatonOfAnswer p (program.describe formula) answer with
      | .error e => (after, .error e)
      | .ok automaton =>
        match automataOf program after ps with
        | (after, .error e) => (after, .error e)
        | (after, .ok automata) => (after, .ok (automaton :: automata))

/-- Compiles the properties of a dialect into a task, with a program as translator. -/
def compileWith (dialect : Dialect) (options : CompileOptions) (program : TranslatorProgram)
    (files : FileTree) (t : Task) (set : PropertySet) : FileTree × Except CompileError Compiled :=
  match dialect with
  | .actionSets => (files, compileActionSets options t set)
  | .temporal =>
    match automataOf program files set.temporal with
    | (files, .error e) => (files, .error e)
    | (files, .ok automata) => (files, compileAutomata options t set automata)

/-- What a run prints, if it does not fail, and the files behind it. -/
structure Finished where
  result : Except RunError String
  files : FileTree

/-- Puts a task where it is asked for: into a file, or on the output. -/
def putTask (o : Options) (files : FileTree) (t : Task) : Finished :=
  match o.output with
  | none => ⟨.ok t.text, files⟩
  | some path =>
    match files.write path t.text with
    | .error e => ⟨.error (.file e), files⟩
    | .ok files => ⟨.ok "", files⟩

/-- What a run depends on besides its arguments and the files. -/
structure Surroundings where
  settings : Environment
  /-- Runs programs. -/
  runner : Runner
  /-- The environment of programs. -/
  programEnvironment : List (Bytes × Bytes)

def runOptions (o : Options) (s : Surroundings) (files : FileTree) : Finished :=
  match readProperties o files with
  | .error e => ⟨.error e, files⟩
  | .ok set =>
    match readTask o files with
    | .error e => ⟨.error e, files⟩
    | .ok t =>
      match o.exclusivityFolder with
      | some folder =>
        match Exclusivity.write files o.dialect set folder with
        | (files, .error e) => ⟨.error (.exclusivity e), files⟩
        | (files, .ok _) => ⟨.ok "", files⟩
      | none =>
        let program := translator s.settings s.runner s.programEnvironment
        match compileWith o.dialect (compileOptions o s.settings) program files t set with
        | (files, .error e) => ⟨.error (.compile e), files⟩
        | (files, .ok c) => putTask o files c.task

/-! ## Results -/

/-- What is seen of a run. -/
structure Result where
  exitCode : Nat
  output : String
  /-- The error that is reported. -/
  error : Option Message
  files : FileTree

/-- What is seen of a run that has finished.  What was written to the device of the output has been
printed. -/
def Finished.toResult (f : Finished) : Result :=
  let taken := String.ofList (Text.decodeLossy (f.files.taken 1))
  match f.result with
  | .ok output => ⟨0, taken ++ output, none, f.files⟩
  | .error e => ⟨1, taken, some e.toMessage, f.files⟩

def run (args : List String) (s : Surroundings) (files : FileTree) : Result :=
  match Options.ofArgs args with
  | .error e => ⟨e.exitCode, "", none, files⟩
  | .ok o => (runOptions o s files).toResult

/-! ## Reports

How an error looks on a terminal.  Characters that would move the cursor or change the direction of
writing are shown by pictures of them. -/

def picture (c : Char) : List Char :=
  if c = '\n' then [c]
  else if c = '\t' then [' ', ' ', ' ', ' ']
  else if c.toNat < 0x20 then [Char.ofNat (0x2400 + c.toNat)]
  else if c.toNat = 0x7f then ['\u2421']
  else if c.toNat = 0x200d then []
  else if (0x202a ≤ c.toNat ∧ c.toNat ≤ 0x202e) ∨ (0x2066 ≤ c.toNat ∧ c.toNat ≤ 0x2069) then
    ['\ufffd']
  else [c]

/-- The first line of the title as it is shown, without blanks at its end. -/
def headline (m : Message) : String :=
  String.ofList (Text.trimRight ((m.title.toList.flatMap picture).takeWhile (· != '\n')))

def placeText (l : Location) : String :=
  l.source ++ ":" ++ toString l.line ++ ":" ++ toString l.column

/-- The whole report: the title, and the place if there is one. -/
def report (m : Message) : String :=
  "error: " ++ String.ofList (m.title.toList.flatMap picture) ++
    match m.location? with
    | some l => "\n --> " ++ placeText l
    | none => ""

end PlanConstraints.CommandLine

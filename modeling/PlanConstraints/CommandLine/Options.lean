import PlanConstraints.Compile.Basic
import PlanConstraints.Text.Split

set_option autoImplicit false

/-!
# Command line: options

What is asked for on the command line.  Options with a value are written `--name value`,
`--name=value` or with the letter of the option: `-n value`, `-nvalue` or `-n=value`.  A value may
start with a hyphen only where it is attached to its option, and there are no arguments besides
options.  No option may be given twice.
-/

namespace PlanConstraints.CommandLine

/-- Options with a value. -/
inductive Valued where
  | sas
  | properties
  | problem
  | domain
  | dialect
  | exclusivityFolder
  | output
  | logLevel
  deriving DecidableEq, Repr

def Valued.names : List (String × Valued) :=
  [("sas", .sas), ("properties", .properties), ("problem", .problem), ("domain", .domain),
    ("dialect", .dialect), ("exclusivity-folder", .exclusivityFolder), ("output", .output),
    ("log-level", .logLevel)]

def Valued.letters : List (Char × Valued) :=
  [('p', .properties), ('d', .domain), ('o', .output), ('l', .logLevel)]

/-- Options without a value. -/
inductive Switch where
  | noGoals
  | negativeActions
  | noAuxiliaryVariables
  | targetOnlyAcceptance
  deriving DecidableEq, Repr

/-- The names of the options without a value. -/
def Switch.names : List (String × Switch) :=
  [("no-goals", .noGoals), ("negative-actions", .negativeActions),
    ("no-auxiliary-variables", .noAuxiliaryVariables),
    ("target-only-acceptance", .targetOnlyAcceptance)]

/-- How much is logged. -/
inductive LogLevel where
  | error
  | warn
  | info
  | debug
  | trace
  deriving DecidableEq, Repr

/-- The levels by name; a level may also be given by its place in this list, counted from 1. -/
def LogLevel.names : List (String × LogLevel) :=
  [("error", .error), ("warn", .warn), ("info", .info), ("debug", .debug), ("trace", .trace)]

/-- The level that a text stands for, in letters of any case. -/
def LogLevel.ofText? (text : String) : Option LogLevel :=
  match Text.natural? 64 text with
  | some (n + 1) => (names[n]?).map (·.2)
  | some 0 => none
  | none => names.lookup (String.ofList (text.toList.map Char.toLower))

/-- Causes for which arguments are refused. -/
inductive UsageError where
  /-- The usage of the program is asked for. -/
  | help
  | unknownOption (arg : String)
  | unexpectedArgument (arg : String)
  /-- A value for an option that takes none. -/
  | unexpectedValue (option : Switch)
  | missingValue (option : Valued)
  | invalidValue (option : Valued) (value : String)
  | repeated (arg : Valued ⊕ Switch)
  | missingProperties
  deriving DecidableEq, Repr

/-! ## Arguments -/

/-- An option as it is given. -/
inductive Setting where
  | value (option : Valued) (text : String)
  | switch (option : Switch)
  deriving DecidableEq, Repr

def Setting.option : Setting → Valued ⊕ Switch
  | value option _ => .inl option
  | switch option => .inr option

/-- One argument by itself. -/
inductive Arg where
  /-- Only arguments that are no options follow. -/
  | escape
  | setting (s : Setting)
  /-- The value is the next argument. -/
  | awaiting (option : Valued)
  | plain (text : String)
  deriving DecidableEq, Repr

/-- Reads an option by its name, with the value behind an equals sign if there is one. -/
def Arg.ofName (arg : String) (body : List Char) : Except UsageError Arg :=
  let name := String.ofList (body.takeWhile (· != '='))
  let attached := body.dropWhile (· != '=')
  match Valued.names.lookup name, attached with
  | some option, [] => .ok (.awaiting option)
  | some option, _ :: value => .ok (.setting (.value option (String.ofList value)))
  | none, _ =>
    match Switch.names.lookup name with
    | some option =>
      if attached = [] then .ok (.setting (.switch option)) else .error (.unexpectedValue option)
    | none => .error (if name = "help" ∧ attached = [] then .help else .unknownOption arg)

/-- Reads an option by its letter, with the value that is attached to it if there is one. -/
def Arg.ofLetter (arg : String) (letter : Char) (attached : List Char) : Except UsageError Arg :=
  match Valued.letters.lookup letter, attached with
  | some option, [] => .ok (.awaiting option)
  | some option, '=' :: value => .ok (.setting (.value option (String.ofList value)))
  | some option, value => .ok (.setting (.value option (String.ofList value)))
  | none, _ => .error (if letter = 'h' then .help else .unknownOption arg)

def Arg.ofText (arg : String) : Except UsageError Arg :=
  match arg.toList with
  | ['-', '-'] => .ok .escape
  | '-' :: '-' :: body => Arg.ofName arg body
  | '-' :: letter :: attached => Arg.ofLetter arg letter attached
  | _ => .ok (.plain arg)

/-- Settings, as far as arguments could be read, and why they could not be read on. -/
structure Reading where
  settings : List Setting
  error : Option UsageError
  deriving DecidableEq

def Reading.behind (s : Setting) (r : Reading) : Reading := { r with settings := s :: r.settings }

/-- Reads arguments; an option that waits for its value is given first. -/
def Reading.ofArgs (waiting : Option Valued) : List String → Reading
  | [] => ⟨[], waiting.map .missingValue⟩
  | arg :: args =>
    match Arg.ofText arg, waiting with
    | .ok (.plain text), some option => (Reading.ofArgs none args).behind (.value option text)
    | .ok (.plain text), none => ⟨[], some (.unexpectedArgument text)⟩
    | _, some option => ⟨[], some (.missingValue option)⟩
    | .error e, none => ⟨[], some e⟩
    | .ok (.setting s), none => (Reading.ofArgs none args).behind s
    | .ok (.awaiting option), none => Reading.ofArgs (some option) args
    | .ok .escape, none => ⟨[], args.head?.map .unexpectedArgument⟩

/-! ## Options -/

/-- What is asked for. -/
structure Options where
  sas : Option String
  properties : String
  problem : Option String
  domain : Option String
  dialect : Dialect
  /-- The folder for the files of pairs of properties, which are written instead of a task. -/
  exclusivityFolder : Option String
  output : Option String
  logLevel : LogLevel
  goals : Bool
  negativeActions : Bool
  auxiliaryVariables : Bool
  acceptance : Acceptance
  deriving DecidableEq, Repr

def valueOf? (given : List Setting) (option : Valued) : Option String :=
  given.findSome? fun s =>
    match s with
    | .value o text => if o = option then some text else none
    | .switch _ => none

/-- The option without a value is given. -/
def isGiven (given : List Setting) (option : Switch) : Bool := given.contains (.switch option)

/-- The value of an option can be used. -/
def isValid (option : Valued) (value : String) : Bool :=
  match option with
  | .dialect => (Dialect.ofText? value).isSome
  | .logLevel => (LogLevel.ofText? value).isSome
  | _ => value != ""

/-- The first setting that repeats one before it or has a value that cannot be used. -/
def faultIn? (before : List Setting) : List Setting → Option UsageError
  | [] => none
  | s :: more =>
    if before.any fun b => b.option = s.option then some (.repeated s.option)
    else
      match s with
      | .value option value =>
        if isValid option value then faultIn? (s :: before) more
        else some (.invalidValue option value)
      | .switch _ => faultIn? (s :: before) more

/-- The options that the arguments give.  Of two errors the one further to the left counts, so that
an argument that asks for the usage does so only behind settings that can be used. -/
def Options.ofArgs (args : List String) : Except UsageError Options :=
  let given := (Reading.ofArgs none args).settings
  match (faultIn? [] given).or (Reading.ofArgs none args).error with
  | some e => .error e
  | none =>
    match valueOf? given .properties with
    | none => .error .missingProperties
    | some properties => .ok {
      sas := valueOf? given .sas
      properties := properties
      problem := valueOf? given .problem
      domain := valueOf? given .domain
      dialect := ((valueOf? given .dialect).bind Dialect.ofText?).getD .actionSets
      exclusivityFolder := valueOf? given .exclusivityFolder
      output := valueOf? given .output
      logLevel := ((valueOf? given .logLevel).bind LogLevel.ofText?).getD .info
      goals := !isGiven given .noGoals
      negativeActions := isGiven given .negativeActions
      auxiliaryVariables := !isGiven given .noAuxiliaryVariables
      acceptance := if isGiven given .targetOnlyAcceptance then .targetOnly else .exact }

/-! ## Errors -/

def nameIn {α : Type} [DecidableEq α] (names : List (String × α)) (option : α) : String :=
  match names.find? fun entry => entry.2 = option with
  | some (name, _) => "--" ++ name
  | none => ""

def optionName : Valued ⊕ Switch → String
  | .inl option => nameIn Valued.names option
  | .inr option => nameIn Switch.names option

def usage : String := "Usage: aries-plan-props [OPTIONS] --properties <PROPERTIES>"

def UsageError.message : UsageError → String
  | help => usage
  | unknownOption arg => "error: unexpected argument '" ++ arg ++ "' found"
  | unexpectedArgument arg => "error: unexpected argument '" ++ arg ++ "' found"
  | unexpectedValue option =>
    "error: unexpected value for '" ++ optionName (.inr option) ++ "' found; no more were expected"
  | missingValue option =>
    "error: a value is required for '" ++ optionName (.inl option) ++ "' but none was supplied"
  | invalidValue option value =>
    "error: invalid value '" ++ value ++ "' for '" ++ optionName (.inl option) ++ "'"
  | repeated option =>
    "error: the argument '" ++ optionName option ++ "' cannot be used multiple times"
  | missingProperties =>
    "error: the following required arguments were not provided: "
      ++ optionName (.inl .properties)

def UsageError.exitCode : UsageError → Nat
  | help => 0
  | _ => 2

end PlanConstraints.CommandLine

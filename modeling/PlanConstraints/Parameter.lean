import PlanConstraints.Text.Split

set_option autoImplicit false

/-!
# Parameters from the environment

Settings that are changed too rarely to deserve an option of the command line.  A parameter gets its
value once: when it is first asked for, from a variable of the environment or else from its default,
unless it was set before.
-/

namespace PlanConstraints

/-- What the environment holds for a variable. -/
inductive EnvValue where
  | unset
  | set (value : String)
  /-- Bytes that are not a text. -/
  | notText
  deriving DecidableEq

/-- A parameter with values of type `α`. -/
structure Parameter (α : Type) where
  /-- Name of the variable. -/
  variableName : String
  /-- Text of the value without a variable. -/
  default : String
  /-- Reads a value. -/
  parse : String → Option α
  /-- The value, once it is known. -/
  value : Option α

/-- The default of a parameter does not read as a value. -/
structure InvalidDefault where
  variableName : String
  default : String

def InvalidDefault.message (e : InvalidDefault) : String :=
  "[" ++ e.variableName ++ "] invalid default value \"" ++ e.default ++ "\"."

namespace Parameter

variable {α : Type}

/-- The value that the default stands for. -/
def defaultValue (p : Parameter α) : Except InvalidDefault α :=
  match p.parse p.default with
  | some v => .ok v
  | none => .error ⟨p.variableName, p.default⟩

/-- The value that a variable gives, which is the default unless the variable holds a value. -/
def read (p : Parameter α) (held : EnvValue) : Except InvalidDefault α :=
  match held with
  | .unset | .notText => p.defaultValue
  | .set text =>
    match p.parse text with
    | some v => .ok v
    | none => p.defaultValue

/-- The value of the parameter, and the parameter that knows it from now on. -/
def get (p : Parameter α) (held : EnvValue) : Except InvalidDefault (α × Parameter α) :=
  match p.value with
  | some v => .ok (v, p)
  | none =>
    match p.read held with
    | .ok v => .ok (v, { p with value := some v })
    | .error e => .error e

/-- Gives the parameter a value, unless it has one. -/
def set? (p : Parameter α) (v : α) : Option (Parameter α) :=
  match p.value with
  | some _ => none
  | none => some { p with value := some v }

/-- A parameter that is any text. -/
def text (variableName default : String) : Parameter String := ⟨variableName, default, some, none⟩

end Parameter

/-- Reads one of the words `true` and `false`. -/
def truthValue? (text : String) : Option Bool :=
  match text with
  | "true" => some true
  | "false" => some false
  | _ => none

/-- The program that translates a temporal formula into a never-claim. -/
def translatorProgram : Parameter String := .text "ARIES_LTL_TRANSLATOR" "ltl2ba"

/-- The argument in front of the formula when that program is run. -/
def translatorFlag : Parameter String := .text "ARIES_LTL_TRANSLATOR_FLAG" "-f"

/-- What the value names of soft goals start with. -/
def softMark : Parameter String := .text "ARIES_SOFT_PREFIX" "soft_"

end PlanConstraints

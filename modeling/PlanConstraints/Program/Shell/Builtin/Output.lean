import PlanConstraints.Program.Shell.Builtin.Control
import PlanConstraints.Program.Shell.Condition
import PlanConstraints.Program.Tool.Format

set_option autoImplicit false

/-!
# Shell: commands of the shell that print or test

Arguments are printed as they are or in a format, and conditions are tested.
-/

namespace PlanConstraints.Shell

def echoEscapes : Tool.EscapeStyle := ⟨true, false, true, false⟩

/-- The bytes of arguments with spaces between them; an escape may stop the printing. -/
def echoBytes (newline : Bool) : List Bytes → Bytes
  | [] => if newline then ['\n'] else []
  | arg :: args =>
    match Tool.unescape echoEscapes arg with
    | (bytes, .whole) =>
      bytes ++
        match args with
        | [] => if newline then ['\n'] else []
        | args => ' ' :: echoBytes newline args
    | (bytes, _) => bytes

/-- Prints arguments with spaces between them. -/
def echo (args : List Bytes) : Action Unit := do
  setLast 0
  match args with
  | ['-', 'n'] :: args => out (echoBytes false args)
  | args => out (echoBytes true args)

/-- The text of a fault in a format or an argument, and whether it is the end of the command. -/
def formatComplaint : Tool.FormatFault → Option (Bytes × Bool)
  | .notNumeric arg => some (arg ++ ": expected numeric value".toList, false)
  | .partlyNumeric arg => some (arg ++ ": not completely converted".toList, false)
  | .outOfRange arg => some (arg ++ ": Numerical result out of range".toList, false)
  | .behindCharacter _ | .badWidth _ | .badPrecision _ | .noDigits => none
  | .unknown conversion => some (conversion ++ ": invalid directive".toList, true)
  | .incomplete _ => some ("missing format character".toList, true)

def printf (args : List Bytes) : Action Unit := do
  let (_, args) ← lettersOf "" "" args
  setLast 0
  match args with
  | [] => fail "usage: printf format [arg ...]".toList
  | text :: args =>
    let result := Tool.format .shell text args
    out result.bytes
    for f in result.faults do
      match formatComplaint f with
      | none => pure ()
      | some (text, true) => fail text
      | some (text, false) =>
        complain text
        setLast 1

/-- Tests the condition that the arguments are; in brackets, it has to be closed. -/
def test (bracket : Bool) (args : List Bytes) : Action Unit := do
  let closed := args.getLast? == some [']']
  if bracket ∧ !closed then fail ConditionFault.missingBracket.message
  else
    match condition (← get).system.files (if bracket then args.dropLast else args) with
    | .ok answer => setLast (if answer then 0 else 1)
    | .error f => fail f.message

end PlanConstraints.Shell

import PlanConstraints.Source.Message
import PlanConstraints.Task.Check
import PlanConstraints.Text.Split
import PlanConstraints.Traverse

set_option autoImplicit false

/-!
# Planning tasks: reading

Reads the text form of planning tasks, line by line.  Blank lines and the white space around a line
do not count.  Everything that is read has to be consistent at the end.
-/

namespace PlanConstraints

namespace TaskFile

/-- Causes for which a text is not a task. -/
inductive FileError where
  /-- The text ends where something is expected; the last line that is not blank is given. -/
  | endOfFile (what : String) (last : Option Line)
  /-- A line is not what is expected. -/
  | expected (what : String) (line : Line)
  | unsupportedVersion (line : Line)
  /-- A number that may not be negative; the last line that was read is given. -/
  | negative (what : String) (line : Option Line)
  /-- A line follows the complete task. -/
  | trailing (line : Line)
  | inconsistent (error : TaskError)

def FileError.toMessage : FileError → Message
  | endOfFile what (some last) =>
    last.span.invalid ("unexpected end of file, expected " ++ what)
  | endOfFile what none => .ofTitle ("empty SAS file, expected " ++ what)
  | expected what line => line.span.invalid ("expected " ++ what)
  | unsupportedVersion line => line.span.invalid "unsupported SAS version, expected 3"
  | negative what (some line) => line.span.invalid ("negative " ++ what)
  | negative what none => .ofTitle ("negative " ++ what)
  | trailing line => line.span.invalid "unexpected content after the axioms"
  | inconsistent error => .ofTitle error.message

/-! ## Readers -/

/-- A place in the lines of a file: the line in front of it and the lines behind it. -/
structure Position where
  previous : Option Line
  rest : List Line

/-- Reads something at a position and moves behind it. -/
abbrev Reader (α : Type) := Position → Except FileError (α × Position)

namespace Reader

variable {α β : Type}

def pure (a : α) : Reader α := fun p => .ok (a, p)

/-- Reads one thing, and then another that may depend on it. -/
def bind (r : Reader α) (next : α → Reader β) : Reader β := fun p =>
  match r p with
  | .error e => .error e
  | .ok (a, p) => next a p

instance : Monad Reader where
  pure := Reader.pure
  bind := Reader.bind

def line (expected : String) : Reader Line := fun p =>
  match p.rest with
  | [] => .error (.endOfFile expected p.previous)
  | l :: rest => .ok (l, ⟨some l, rest⟩)

/-- The next line, taken for what a function makes of it. -/
def parsed (expected : String) (parse : String → Option α) : Reader α := do
  let l ← line expected
  match parse l.trimmed with
  | some a => Reader.pure a
  | none => fun _ => .error (.expected expected l)

def keyword (word : String) : Reader Unit :=
  parsed ("`" ++ word ++ "`") fun text => if text = word then some () else none

def text (expected : String) : Reader String := parsed expected some

/-- A line that is a count, a variable or a value. -/
def natural (expected : String) : Reader Nat := parsed expected (Text.natural? 64)

def integers? (text : String) : Option (List Int) :=
  (Text.wordsOf text).mapM (Text.integer? 64)

/-- As many things as the number says. -/
def times (r : Reader α) : Nat → Reader (List α)
  | 0 => Reader.pure []
  | n + 1 => do
    let a ← r
    let as ← times r n
    Reader.pure (a :: as)

/-- A number that has been read and may not be negative. -/
def nonNegative (what : String) (n : Int) : Reader Nat := fun p =>
  if n < 0 then .error (.negative what p.previous) else .ok (n.toNat, p)

end Reader

open Reader

/-! ## Parts of a task -/

def factOf? (text : String) : Option Fact :=
  match Text.wordsOf text with
  | [var, value] =>
    match Text.natural? 64 var, Text.natural? 64 value with
    | some var, some value => some ⟨var, value⟩
    | _, _ => none
  | _ => none

def factLine : Reader Fact := parsed "a variable-value pair" factOf?

def facts (expected : String) : Reader (List Fact) := do
  let n ← natural expected
  times factLine n

/-- A value that a negative number leaves open. -/
def optionalOf (n : Int) : Option Nat := if n < 0 then none else some n.toNat

def variableBlock : Reader Variable := do
  keyword "begin_variable"
  let name ← text "a variable name"
  let layer ← parsed "an axiom layer" (Text.integer? 32)
  let size ← natural "a domain size"
  let values ← times (text "a value name") size
  keyword "end_variable"
  Reader.pure ⟨name, layer, values⟩

def mutexBlock : Reader (List Fact) := do
  keyword "begin_mutex_group"
  let group ← facts "the size of the mutex group"
  keyword "end_mutex_group"
  Reader.pure group

def factsOf : List (Int × Int) → Reader (List Fact)
  | [] => Reader.pure []
  | (var, value) :: rest => do
    let var ← nonNegative "variable" var
    let value ← nonNegative "value" value
    let facts ← factsOf rest
    Reader.pure (⟨var, value⟩ :: facts)

/-- The numbers of an effect: those of its conditions in pairs, its variable, the value needed and
the new value. -/
structure EffectNumbers where
  conditions : List (Int × Int)
  var : Int
  pre : Int
  post : Int

namespace EffectNumbers

/-- Numbers with that many conditions in front. -/
def ofList? : Nat → List Int → Option EffectNumbers
  | 0, [var, pre, post] => some ⟨[], var, pre, post⟩
  | n + 1, var :: value :: rest =>
    (ofList? n rest).map fun e => { e with conditions := (var, value) :: e.conditions }
  | _, _ => none

/-- A line that starts with the number of conditions. -/
def counted? (text : String) : Option EffectNumbers :=
  match Text.wordsOf text, integers? text with
  | word :: _, some (_ :: ns) =>
    match Text.natural? 64 word with
    | some n => ofList? n ns
    | none => none
  | _, _ => none

/-- A line without conditions. -/
def bare? (text : String) : Option EffectNumbers :=
  match integers? text with
  | some ns => ofList? 0 ns
  | none => none

/-- The effect; variables and new values may not be negative. -/
def toEffect (e : EffectNumbers) : Reader Effect := do
  let conditions ← factsOf e.conditions
  let var ← nonNegative "variable" e.var
  let post ← nonNegative "value" e.post
  Reader.pure ⟨var, optionalOf e.pre, post, conditions⟩

end EffectNumbers

def effectLine : Reader Effect := do
  let numbers ← parsed "an effect" EffectNumbers.counted?
  numbers.toEffect

def operatorBlock : Reader Operator := do
  keyword "begin_operator"
  let name ← text "an operator name"
  let prevail ← facts "the number of prevail conditions"
  let n ← natural "the number of effects"
  let effects ← times effectLine n
  let cost ← parsed "an operator cost" (Text.integer? 64)
  keyword "end_operator"
  Reader.pure ⟨name, prevail, effects, cost⟩

def ruleBlock : Reader Rule := do
  keyword "begin_rule"
  let conditions ← facts "the number of conditions"
  let numbers ← parsed "an axiom effect" EffectNumbers.bare?
  keyword "end_rule"
  let effect ← numbers.toEffect
  Reader.pure ⟨conditions, effect.var, effect.pre, effect.post⟩

def version : Reader Unit := do
  keyword "begin_version"
  let l ← line "a version number"
  if l.trimmed = "3" then keyword "end_version"
  else fun _ => .error (.unsupportedVersion l)

def endOfTask : Reader Unit := fun p =>
  match p.rest with
  | [] => .ok ((), p)
  | l :: _ => .error (.trailing l)

def task : Reader Task := do
  version
  keyword "begin_metric"
  let metric ← parsed "0 or 1" (Text.natural? 8)
  keyword "end_metric"
  let count ← natural "the number of variables"
  let vars ← times variableBlock count
  let mutexCount ← natural "the number of mutex groups"
  let mutexes ← times mutexBlock mutexCount
  keyword "begin_state"
  let init ← times (natural "an initial value") count
  keyword "end_state"
  keyword "begin_goal"
  let goal ← facts "the number of goals"
  keyword "end_goal"
  let operatorCount ← natural "the number of operators"
  let operators ← times operatorBlock operatorCount
  let ruleCount ← natural "the number of axioms"
  let rules ← times ruleBlock ruleCount
  endOfTask
  Reader.pure ⟨metric != 0, vars, mutexes, init, goal, operators, rules⟩

def read (input : Input) : Except FileError Task :=
  match task ⟨none, input.lines.filter fun l => !l.isBlank⟩ with
  | .error e => .error e
  | .ok (t, _) =>
    match t.check with
    | .error e => .error (.inconsistent e)
    | .ok () => .ok t

end TaskFile

end PlanConstraints

import PlanConstraints.Task.Basic

set_option autoImplicit false

/-!
# Planning tasks: consistency

The initial state, the goal and the operators of a task may only speak of values that exist.
-/

namespace PlanConstraints

/-- Causes for which a task is inconsistent. -/
inductive TaskError where
  | unknownVariable (var : VarId)
  | valueOutOfRange (var : VarId) (value size : Nat)
  | incompleteInitialState (expected found : Nat)
  | domainTooSmall (var : VarId) (size : Nat)
  deriving DecidableEq, Repr

def TaskError.message : TaskError → String
  | unknownVariable var => "unknown variable " ++ toString var
  | valueOutOfRange var value size =>
    "value " ++ toString value ++ " out of the domain of variable " ++ toString var ++ " (size "
      ++ toString size ++ ")"
  | incompleteInitialState expected found =>
    "the initial state has " ++ toString found ++ " values for " ++ toString expected
      ++ " variables"
  | domainTooSmall var size =>
    "variable " ++ toString var ++ " has a domain of size " ++ toString size
      ++ ", at least 2 values are required"

namespace Task

/-- The fact speaks of a variable and a value that exist. -/
def checkFact (t : Task) (f : Fact) : Except TaskError Unit :=
  match t.vars[f.var]? with
  | none => .error (.unknownVariable f.var)
  | some v =>
    if f.value < v.values.length then .ok ()
    else .error (.valueOutOfRange f.var f.value v.values.length)

/-- All facts speak of variables and values that exist. -/
def checkFacts (t : Task) : List Fact → Except TaskError Unit
  | [] => .ok ()
  | f :: fs =>
    match t.checkFact f with
    | .error e => .error e
    | .ok () => t.checkFacts fs

/-- The variables, numbered from `var`, have at least two values each, one of them the initial
value. -/
def checkVariables (t : Task) (var : VarId) : List Variable → List Nat → Except TaskError Unit
  | v :: vs, value :: values =>
    if v.values.length < 2 then .error (.domainTooSmall var v.values.length)
    else
      match t.checkFact ⟨var, value⟩ with
      | .error e => .error e
      | .ok () => t.checkVariables (var + 1) vs values
  | _, _ => .ok ()

/-- The facts of which an effect speaks, but for its precondition. -/
def effectFacts (e : Effect) : List Fact := e.result :: e.conditions

def operatorFacts (op : Operator) : List Fact :=
  op.preconditions ++ op.effects.flatMap effectFacts

/-- The task is consistent. -/
def check (t : Task) : Except TaskError Unit :=
  if t.init.length ≠ t.vars.length then
    .error (.incompleteInitialState t.vars.length t.init.length)
  else
    match t.checkVariables 0 t.vars t.init with
    | .error e => .error e
    | .ok () => t.checkFacts (t.goal ++ t.operators.flatMap operatorFacts)

end Task

end PlanConstraints

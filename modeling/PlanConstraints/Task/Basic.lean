import PlanConstraints.Text.LowerCase
import PlanConstraints.Text.Blank

set_option autoImplicit false

/-!
# Planning tasks

Planning tasks with variables of finite domain.  A variable, a value, an operator is known by its
number, its place in the list; tasks are only ever extended, so that the numbers stay what they are.

A state gives every variable a value.  Rules that derive values from others are kept with a task but
not applied.
-/

namespace PlanConstraints

/-- The number of a variable. -/
abbrev VarId := Nat

/-- A variable has a value. -/
structure Fact where
  var : VarId
  value : Nat
  deriving DecidableEq, Repr

/-- A variable, whose values are known by their numbers. -/
structure Variable where
  name : String
  /-- The layer of the rules that derive the variable, `-1` for one that operators change. -/
  layer : Int
  /-- The names of the values. -/
  values : List String
  deriving DecidableEq, Repr

/-- What an operator does to one variable. -/
structure Effect where
  var : VarId
  /-- The value that the variable needs for the operator to be applicable, if any. -/
  pre : Option Nat
  /-- The value that the variable gets. -/
  post : Nat
  /-- What must be true for the variable to get that value. -/
  conditions : List Fact
  deriving DecidableEq, Repr

/-- An unconditional effect. -/
def Effect.assign (var : VarId) (pre : Option Nat) (post : Nat) : Effect := ⟨var, pre, post, []⟩

/-- A condition on a variable that keeps its value. -/
def Effect.test (var : VarId) (value : Nat) : Effect := .assign var (some value) value

structure Operator where
  name : String
  /-- Conditions on variables that the operator does not change. -/
  prevail : List Fact
  effects : List Effect
  cost : Int
  deriving DecidableEq, Repr

/-- A rule derives a value of a variable from conditions. -/
structure Rule where
  conditions : List Fact
  var : VarId
  pre : Option Nat
  post : Nat
  deriving DecidableEq, Repr

structure Task where
  /-- The costs of the operators count. -/
  metric : Bool
  vars : List Variable
  /-- Groups of facts of which at most one is true. -/
  mutexes : List (List Fact)
  init : List Nat
  goal : List Fact
  operators : List Operator
  rules : List Rule
  deriving DecidableEq, Repr

/-- A state: the values of the variables. -/
abbrev Assignment := List Nat

/-! ## States and operators -/

/-- The fact is true in the state. -/
def Fact.holds (state : Assignment) (f : Fact) : Bool := state[f.var]? == some f.value

namespace Effect

/-- The fact that the effect makes true. -/
def result (e : Effect) : Fact := ⟨e.var, e.post⟩

/-- The fact that the effect needs, if any. -/
def precondition? (e : Effect) : Option Fact := e.pre.map fun value => ⟨e.var, value⟩

/-- The conditions of the effect are true. -/
def fires (state : Assignment) (e : Effect) : Bool := e.conditions.all (Fact.holds state)

end Effect

namespace Operator

/-- An operator without conditions besides those of its effects. -/
def ofEffects (name : String) (effects : List Effect) (cost : Int) : Operator :=
  ⟨name, [], effects, cost⟩

/-- Some effect of the operator is on the variable. -/
def assigns (op : Operator) (var : VarId) : Bool := op.effects.any fun e => e.var == var

/-- All facts that must be true for the operator to be applicable. -/
def preconditions (op : Operator) : List Fact :=
  op.prevail ++ op.effects.filterMap Effect.precondition?

def isApplicable (op : Operator) (state : Assignment) : Bool :=
  op.preconditions.all (Fact.holds state)

/-- The state after the operator.  Conditions of effects are those of the state before it; of
several effects on a variable the last one counts. -/
def apply (op : Operator) (state : Assignment) : Assignment :=
  op.effects.foldl (fun next e => if e.fires state then next.set e.var e.post else next) state

def addPrevail (op : Operator) (f : Fact) : Operator := { op with prevail := op.prevail ++ [f] }

def addEffect (op : Operator) (e : Effect) : Operator := { op with effects := op.effects ++ [e] }

end Operator

namespace Task

def empty : Task := ⟨false, [], [], [], [], [], []⟩

/-! ## Extending a task -/

/-- The number that the next variable gets. -/
def nextVar (t : Task) : VarId := t.vars.length

/-- Adds a variable, named after its number. -/
def addVariable (t : Task) (values : List String) (layer : Int) : Task :=
  { t with vars := t.vars ++ [⟨"var" ++ toString t.nextVar, layer, values⟩] }

/-- Gives the first variable without an initial value that value. -/
def addInit (t : Task) (value : Nat) : Task := { t with init := t.init ++ [value] }

/-- Adds a variable that operators change, with its initial value. -/
def addStateVariable (t : Task) (values : List String) (init : Nat) : Task :=
  (t.addVariable values (-1)).addInit init

def addGoal (t : Task) (f : Fact) : Task := { t with goal := t.goal ++ [f] }

def addOperator (t : Task) (op : Operator) : Task := { t with operators := t.operators ++ [op] }

/-- Gives a value another name. -/
def renameValue (t : Task) (f : Fact) (name : String) : Task :=
  { t with
    vars := t.vars.modify f.var fun v => { v with values := v.values.set f.value name } }

def mapOperators (t : Task) (f : Operator → Operator) : Task :=
  { t with operators := t.operators.map f }

end Task

/-! ## Facts by name -/

/-- The name of a fact as it is compared: without white space around it, in lower case, and with one
space less after a comma. -/
def factName (name : String) : String :=
  Text.lowerCase (String.ofList (closeCommas (Text.trim name.toList)))
where
  /-- Drops the space after every comma that has one. -/
  closeCommas : List Char → List Char
    | [] => []
    | ',' :: ' ' :: cs => ',' :: closeCommas cs
    | c :: cs => c :: closeCommas cs

/-- What the names of values that are facts start with. -/
def factMark : String := "Atom "

/-- The name of the fact that a value stands for, if it stands for one. -/
def factOfValue? (value : String) : Option String :=
  if factMark.toList.isPrefixOf value.toList then
    some (factName (String.ofList (value.toList.drop factMark.length)))
  else none

namespace Task

/-- The first value with the given name among values numbered from `number`. -/
def findValue (name : String) (number : Nat) : List String → Option Nat
  | [] => none
  | value :: values =>
    if factOfValue? value = some name then some number else findValue name (number + 1) values

/-- The first fact with the given name among variables numbered from `var`. -/
def findFactFrom (name : String) (var : VarId) : List Variable → Option Fact
  | [] => none
  | v :: vs =>
    match findValue name 0 v.values with
    | some value => some ⟨var, value⟩
    | none => findFactFrom name (var + 1) vs

/-- The fact of a name, first by variable, then by value. -/
def findFact? (t : Task) (name : String) : Option Fact :=
  findFactFrom (factName name) 0 t.vars

end Task

end PlanConstraints

import PlanConstraints.Automaton.NeverClaim
import PlanConstraints.Property.Basic
import PlanConstraints.Task.Basic
import PlanConstraints.Translator

set_option autoImplicit false

/-!
# Compiling properties into a task

Properties become part of a planning task: new variables and operators keep track of what a plan has
done, so that a goal of the new task says whether it satisfies them.  This module holds what is
common to both dialects: the options, the errors, and the variables that record which action sets a
plan has used.
-/

namespace PlanConstraints

/-- How the variable for acceptance follows the state of an automaton. -/
inductive Acceptance where
  /-- Every transition sets it. -/
  | exact
  /-- Only transitions into an accepting state set it. -/
  | targetOnly
  deriving DecidableEq, Repr

def Acceptance.text : Acceptance → String
  | exact => "exact"
  | targetOnly => "target-only"

def Acceptance.ofText? (text : String) : Option Acceptance :=
  match text with
  | "exact" => some exact
  | "target-only" => some targetOnly
  | _ => none

structure CompileOptions where
  /-- The goal requires every property. -/
  addGoals : Bool
  /-- Operators also mark properties as violated, in the dialect of action sets. -/
  negativeActions : Bool
  /-- Facts of variables with more than two values may be negated, in the temporal dialect. -/
  auxiliaryVariables : Bool
  acceptance : Acceptance
  /-- What the names of values that are soft goals start with.  Any text is possible; one that
  starts like the values that are facts makes a fact of the acceptance of a soft property, and an
  operator of its automaton may then have a condition on what it assigns. -/
  softMark : String
  deriving DecidableEq, Repr

/-- Causes for which properties cannot be compiled. -/
inductive CompileError where
  | unknownActionSet (property set : Symbol)
  | unknownFact (property fact : Symbol)
  /-- A negated fact that needs an auxiliary variable, where there may be none. -/
  | unsupportedNegation (property fact : Symbol) (domainSize : Nat)
  | formula (property : Symbol) (error : FormulaError)
  | automaton (property : Symbol) (error : AutomatonError)
  | translator (property : Symbol) (error : TranslatorError)

namespace CompileError

def message : CompileError → String
  | unknownActionSet property set =>
    "property `" ++ property.name ++ "` refers to the unknown action set `" ++ set.name ++ "`"
  | unknownFact property fact =>
    "property `" ++ property.name ++ "` refers to `" ++ fact.name
      ++ "`, which is neither an action set nor a fact of the task"
  | unsupportedNegation property fact domainSize =>
    "property `" ++ property.name ++ "` negates `" ++ fact.name ++ "` whose variable has "
      ++ toString domainSize ++ " values, which requires auxiliary variables"
  | formula property error =>
    "invalid formula in property `" ++ property.name ++ "`: " ++ error.message
  | automaton property error =>
    "invalid automaton for property `" ++ property.name ++ "`: " ++ error.message
  | translator property error =>
    "translation of property `" ++ property.name ++ "` failed: " ++ error.message

/-- The error as it is reported: at the symbol at fault, or at the faulty part of an automaton. -/
def toMessage (e : CompileError) : Message :=
  match e with
  | unknownActionSet _ symbol | unknownFact _ symbol | unsupportedNegation _ symbol _
  | formula symbol _ | translator symbol _ => symbol.invalid e.message
  | automaton _ error => error.toMessage.withTitle e.message

end CompileError

/-- What a compilation made of a task. -/
structure Compiled where
  task : Task
  /-- The action sets with the variables that record their use. -/
  usedVars : List (String × VarId)
  /-- The variables that tell whether the properties hold, property by property. -/
  propertyVars : List VarId
  /-- The action sets to which no operator belongs. -/
  emptySets : List String
  /-- The automata with the numbers of their states. -/
  automata : List (String × Nat)
  /-- The number of auxiliary variables. -/
  auxiliary : Nat
  deriving DecidableEq, Repr

/-! ## Recording the use of action sets -/

/-- The values of the variable that records whether a set was used. -/
def usedValues (set : String) : List String := ["not_used_" ++ set, "used_" ++ set]

def Operator.isIn (op : Operator) (s : ActionSet) : Bool := s.containsOperator op.name

/-- An operator of the set records in the variable that the set is used. -/
def Operator.record (s : ActionSet) (used : VarId) (op : Operator) : Operator :=
  if op.isIn s then op.addEffect (.assign used none 1) else op

/-- A task with the variables for the use of action sets. -/
structure Recording where
  task : Task
  usedVars : List (String × VarId)
  emptySets : List String

/-- Adds the variable for one set; the first `count` operators record its use. -/
def Recording.add (count : Nat) (r : Recording) (s : ActionSet) : Recording :=
  let used := r.task.nextVar
  let ops := r.task.operators.take count
  let t := r.task.addStateVariable (usedValues s.name) 0
  { task := { t with
      operators := ops.map (Operator.record s used) ++ r.task.operators.drop count }
    usedVars := r.usedVars ++ [(s.name, used)]
    emptySets :=
      if ops.any fun op => op.isIn s then r.emptySets else r.emptySets ++ [s.name] }

/-- Adds variables for the use of sets; the first `count` operators record it. -/
def recordSets (t : Task) (count : Nat) (sets : ActionSets) : Recording :=
  sets.sets.foldl (Recording.add count) ⟨t, [], []⟩

end PlanConstraints

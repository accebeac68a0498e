import PlanConstraints.Task.Basic

set_option autoImplicit false

/-!
# Planning tasks: written form

The text form of planning tasks that planners read, version 3.  Every line holds a keyword, a name
or numbers.
-/

namespace PlanConstraints

def Fact.words (f : Fact) : List String := [toString f.var, toString f.value]

def Fact.line (f : Fact) : String := " ".intercalate f.words

/-- How an optional value is written. -/
def optionalValue : Option Nat → String
  | none => "-1"
  | some value => toString value

def Effect.line (e : Effect) : String :=
  " ".intercalate <| toString e.conditions.length :: e.conditions.flatMap Fact.words
    ++ [toString e.var, optionalValue e.pre, toString e.post]

/-- A list of facts under its length. -/
def factLines (facts : List Fact) : List String := toString facts.length :: facts.map Fact.line

def Variable.lines (v : Variable) : List String :=
  ["begin_variable", v.name, toString v.layer, toString v.values.length] ++ v.values
    ++ ["end_variable"]

def mutexLines (group : List Fact) : List String :=
  "begin_mutex_group" :: factLines group ++ ["end_mutex_group"]

def Operator.lines (op : Operator) : List String :=
  ["begin_operator", op.name] ++ factLines op.prevail
    ++ toString op.effects.length :: op.effects.map Effect.line
    ++ [toString op.cost, "end_operator"]

def Rule.lines (r : Rule) : List String :=
  "begin_rule" :: factLines r.conditions
    ++ [" ".intercalate [toString r.var, optionalValue r.pre, toString r.post], "end_rule"]

def Task.lines (t : Task) : List String :=
  ["begin_version", "3", "end_version"]
    ++ ["begin_metric", if t.metric then "1" else "0", "end_metric"]
    ++ toString t.vars.length :: t.vars.flatMap Variable.lines
    ++ toString t.mutexes.length :: t.mutexes.flatMap mutexLines
    ++ "begin_state" :: t.init.map toString ++ ["end_state"]
    ++ "begin_goal" :: factLines t.goal ++ ["end_goal"]
    ++ toString t.operators.length :: t.operators.flatMap Operator.lines
    ++ toString t.rules.length :: t.rules.flatMap Rule.lines

def Task.text (t : Task) : String := String.join (t.lines.map fun line => line ++ "\n")

end PlanConstraints

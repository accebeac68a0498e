import PlanConstraints.Compile.Basic
import PlanConstraints.Formula.Clause
import PlanConstraints.Traverse

set_option autoImplicit false

/-!
# Compiling properties over action sets

Plans get two phases.  In the first one only the operators of the task are applicable, and each
records the action sets it belongs to.  A new operator changes to the second phase, in which only
checking operators are applicable: one for every clause of the normal form of a property, which sets
the variable of the property if the clause is true of the sets that were used.
-/

namespace PlanConstraints

/-- The name of the operator that changes to the second phase. -/
def changeToEvaluation : String := "change_to_evaluation"

/-! ## Phases -/

/-- Adds the variable for the phase and the operator that changes it. -/
def addPhases (t : Task) : Task :=
  let phase := t.nextVar
  ((t.addStateVariable ["phase_0", "phase_1"] 0).mapOperators fun op =>
    op.addPrevail ⟨phase, 0⟩).addOperator
      (.ofEffects changeToEvaluation [.assign phase (some 0) 1] 0)

/-! ## Properties -/

/-- The values of the variable that tells whether a property holds. -/
def satisfactionValues (p : Property) : List String :=
  [p.kind ++ "_not_sat_" ++ p.name.name, p.kind ++ "_sat_" ++ p.name.name]

/-- Adds the variable for a property, which becomes a goal if goals are added. -/
def addSatisfaction (addGoals : Bool) (t : Task) (p : Property) : Task :=
  let var := t.nextVar
  let t := t.addStateVariable (satisfactionValues p) 0
  if addGoals then t.addGoal ⟨var, 1⟩ else t

/-! ## Checking operators -/

/-- The condition that a literal puts on the variable of its set. -/
def literalTest (usedVars : List (String × VarId)) (p : Property) (l : Literal Symbol) :
    Except CompileError Fact :=
  match usedVars.lookup l.atom.name with
  | some var => .ok ⟨var, if l.negated then 0 else 1⟩
  | none => .error (.unknownActionSet p.name l.atom)

/-- What the checking operators of a property have in common. -/
structure Checking where
  property : Property
  /-- What their names start with. -/
  label : String
  phase : VarId
  satisfaction : VarId
  /-- The value that they give to the variable of the property. -/
  value : Nat

def Checking.operator (c : Checking) (number : Nat) (tests : List Fact) : Operator where
  name := c.label ++ c.property.name.name ++ "_" ++ toString number
  prevail := tests ++ [⟨c.phase, 1⟩]
  effects := [.assign c.satisfaction none c.value]
  cost := 0

/-- The operators for clauses that are numbered from `number`; there is none for a clause that
cannot be true. -/
def Checking.operators (c : Checking) (usedVars : List (String × VarId)) (number : Nat) :
    List (Clause Symbol) → Except CompileError (List Operator)
  | [] => .ok []
  | clause :: clauses =>
    match traverse (literalTest usedVars c.property) clause with
    | .error e => .error e
    | .ok tests =>
      match c.operators usedVars (number + 1) clauses with
      | .error e => .error e
      | .ok ops =>
        .ok (if clause.isContradictory then ops else c.operator number tests :: ops)

/-- The clauses of the normal form of a formula of a property. -/
def propertyClauses (p : Property) (f : Formula Symbol) :
    Except CompileError (List (Clause Symbol)) :=
  match f.toDnf.clauses with
  | .error e => .error (.formula p.name e)
  | .ok clauses => .ok clauses

/-- The operators that check a formula of a property. -/
def checkFormula (usedVars : List (String × VarId)) (c : Checking) (f : Formula Symbol) :
    Except CompileError (List Operator) :=
  match propertyClauses c.property f with
  | .error e => .error e
  | .ok clauses => c.operators usedVars 0 clauses

/-- The operators that check a property, and its negation if that is asked for. -/
def checkProperty (usedVars : List (String × VarId)) (phase : VarId) (negative : Bool)
    (p : Property × VarId) : Except CompileError (List Operator) :=
  match checkFormula usedVars ⟨p.1, "check_", phase, p.2, 1⟩ p.1.formula with
  | .error e => .error e
  | .ok ops =>
    if negative then
      match checkFormula usedVars ⟨p.1, "neg_check_", phase, p.2, 0⟩ p.1.formula.negate with
      | .error e => .error e
      | .ok negated => .ok (ops ++ negated)
    else .ok ops

/-! ## Soft goals -/

/-- The name of a value with the mark of soft goals, if it ends like a soft goal and has no mark. -/
def markValue (mark : String) (softGoals : List String) (value : String) : String :=
  if !mark.toList.isPrefixOf value.toList
      && softGoals.any fun goal => goal.toList.isSuffixOf value.toList then
    mark ++ value
  else value

section

variable {mark : String} {softGoals : List String} {value : String}

/-- A value is marked that does not start with the mark, and ends like a soft goal. -/
theorem markValue_of_isSoft (hmark : ¬ mark.toList <+: value.toList)
    (hgoal : ∃ goal ∈ softGoals, goal.toList <:+ value.toList) :
    markValue mark softGoals value = mark ++ value := by
  obtain ⟨goal, hmem, hsuffix⟩ := hgoal
  refine if_pos ?_
  rw [Bool.and_eq_true, Bool.not_eq_true', Bool.eq_false_iff, List.any_eq_true]
  exact ⟨mt List.isPrefixOf_iff_prefix.mp hmark, goal, hmem,
    List.isSuffixOf_iff_suffix.mpr hsuffix⟩

/-- Other values stay as they are. -/
theorem markValue_of_not_isSoft (h : ¬ (¬ mark.toList <+: value.toList ∧
    ∃ goal ∈ softGoals, goal.toList <:+ value.toList)) :
    markValue mark softGoals value = value := by
  refine if_neg fun hmarks => h ?_
  rw [Bool.and_eq_true, Bool.not_eq_true', Bool.eq_false_iff, List.any_eq_true] at hmarks
  obtain ⟨hmark, goal, hmem, hsuffix⟩ := hmarks
  exact ⟨mt List.isPrefixOf_iff_prefix.mpr hmark, goal, hmem,
    List.isSuffixOf_iff_suffix.mp hsuffix⟩

/-- A value gets the mark, or stays as it is. -/
theorem markValue_cases (mark : String) (softGoals : List String) (value : String) :
    (¬ mark.toList <+: value.toList ∧ (∃ goal ∈ softGoals, goal.toList <:+ value.toList) ∧
        markValue mark softGoals value = mark ++ value) ∨
      markValue mark softGoals value = value := by
  by_cases h : ¬ mark.toList <+: value.toList ∧ ∃ goal ∈ softGoals, goal.toList <:+ value.toList
  · exact .inl ⟨h.1, h.2, markValue_of_isSoft h.1 h.2⟩
  · exact .inr (markValue_of_not_isSoft h)

/-- A value that starts with the mark is not marked again. -/
theorem markValue_of_isPrefix (h : mark.toList <+: value.toList) :
    markValue mark softGoals value = value :=
  markValue_of_not_isSoft fun hsoft => hsoft.1 h

/-- A value gets the mark only once. -/
@[simp] theorem markValue_markValue (mark : String) (softGoals : List String) (value : String) :
    markValue mark softGoals (markValue mark softGoals value) = markValue mark softGoals value := by
  rcases markValue_cases mark softGoals value with ⟨-, -, hmarked⟩ | hsame
  · rw [hmarked]
    exact markValue_of_isPrefix (by rw [String.toList_append]; exact List.prefix_append _ _)
  · rw [hsame, hsame]

end

/-- Marks the values that are soft goals. -/
def markSoftGoals (mark : String) (softGoals : List String) (t : Task) : Task :=
  { t with
    vars := t.vars.map fun v =>
      { v with values := v.values.map (markValue mark softGoals) } }

/-! ## Compilation -/

/-- The variables for properties, when the first one gets the given number. -/
def satisfactionVars (first : VarId) (ps : List Property) : List VarId :=
  List.range' first ps.length

/-- Compiles the properties over action sets into a task. -/
def compileActionSets (options : CompileOptions) (t : Task) (set : PropertySet) :
    Except CompileError Compiled :=
  let phase := t.nextVar
  let phased := addPhases t
  let satisfaction := satisfactionVars phased.nextVar set.properties
  let withProperties := set.properties.foldl (addSatisfaction options.addGoals) phased
  let recording := recordSets withProperties t.operators.length set.actionSets
  match traverse (checkProperty recording.usedVars phase options.negativeActions)
      (set.properties.zip satisfaction) with
  | .error e => .error e
  | .ok ops =>
    let task := { recording.task with operators := recording.task.operators ++ ops.flatten }
    .ok
      { task := markSoftGoals options.softMark set.softGoals task
        usedVars := recording.usedVars
        propertyVars := satisfaction
        emptySets := recording.emptySets
        automata := []
        auxiliary := 0 }

end PlanConstraints

import PlanConstraints.Compile.ActionSets
import PlanConstraints.Proofs.Compile.Recording

set_option autoImplicit false

/-!
# Tasks with phases

What the compilation of properties over action sets makes of a task, and what the operators of the
new task do.  A state of the new task is given by a situation: the operators of the task executed so
far with the state they lead to, the phase, and the values of the variables of the properties.

`apply_ownOperator`, `apply_changeOperator` and `apply_checking` say how each kind of operator
changes the situation.
-/

namespace PlanConstraints

namespace Phases

/-- What a new variable stands for. -/
inductive Role where
  | phase
  /-- The property of the number holds. -/
  | satisfied (property : Nat)
  /-- The set of the number was used. -/
  | used (set : Nat)

/-- The place of a variable behind those of the task. -/
def Role.index (set : PropertySet) : Role → Nat
  | phase => 0
  | satisfied j => 1 + j
  | used j => 1 + set.properties.length + j

/-- What the new variables stand for, in order. -/
def roles (set : PropertySet) : List Role :=
  .phase :: ((List.range set.properties.length).map .satisfied
    ++ (List.range set.actionSets.sets.length).map .used)

theorem roles_phase (set : PropertySet) : (roles set)[Role.phase.index set]? = some .phase := rfl

theorem roles_satisfied {set : PropertySet} {j : Nat} (hj : j < set.properties.length) :
    (roles set)[(Role.satisfied j).index set]? = some (.satisfied j) := by
  rw [roles, Role.index, Nat.add_comm, List.getElem?_cons_succ,
    List.getElem?_append_left (by simpa using hj)]
  simp [hj]

theorem roles_used {set : PropertySet} {j : Nat} (hj : j < set.actionSets.sets.length) :
    (roles set)[(Role.used j).index set]? = some (.used j) := by
  rw [roles, Role.index,
    show 1 + set.properties.length + j = set.properties.length + j + 1 by omega,
    List.getElem?_cons_succ, List.getElem?_append_right (by simp)]
  simp [hj]

/-- A role stands at its place only. -/
theorem index_of_getElem?_roles {set : PropertySet} {i : Nat} {role : Role}
    (h : (roles set)[i]? = some role) : i = role.index set := by
  cases i with
  | zero => cases h; rfl
  | succ i =>
    rw [roles, List.getElem?_cons_succ, List.getElem?_append] at h
    split at h
    · rw [List.getElem?_map, Option.map_eq_some_iff] at h
      obtain ⟨j, hj, rfl⟩ := h
      rw [List.getElem?_eq_some_iff] at hj
      obtain ⟨_, rfl⟩ := hj
      rw [List.getElem_range, Role.index, Nat.add_comm]
    · next hge =>
      rw [List.getElem?_map, Option.map_eq_some_iff] at h
      obtain ⟨j, hj, rfl⟩ := h
      rw [List.getElem?_eq_some_iff] at hj
      obtain ⟨_, rfl⟩ := hj
      rw [List.length_map, List.length_range] at hge
      rw [List.getElem_range, Role.index, List.length_map, List.length_range]
      omega

theorem lt_of_mem_roles_satisfied {set : PropertySet} {j : Nat}
    (h : Role.satisfied j ∈ roles set) : j < set.properties.length := by
  simpa [roles] using h

/-! ## Situations -/

/-- Where a run of the new task stands. -/
structure Situation where
  /-- The operators of the task executed so far. -/
  path : List Nat
  /-- The state that they lead to. -/
  state : Assignment
  phase : Nat
  /-- The values of the variables of the properties. -/
  satisfied : Nat → Nat

namespace Situation

variable (t : Task) (set : PropertySet) (c : Situation)

/-- The value of a new variable. -/
def value : Role → Nat
  | .phase => c.phase
  | .satisfied j => c.satisfied j
  | .used j => (set.actionSets.sets[j]?.any (t.uses c.path)).toNat

/-- The state of the new task. -/
def encode : Assignment := c.state ++ (roles set).map (c.value t set)

variable {t set c}

theorem getElem?_encode_of_lt (hlen : c.state.length = t.vars.length) {v : Nat}
    (hv : v < t.vars.length) : (c.encode t set)[v]? = c.state[v]? :=
  List.getElem?_append_left (by rw [hlen]; exact hv)

theorem holds_encode_iff (hlen : c.state.length = t.vars.length) {i value : Nat} {role : Role}
    (hrole : (roles set)[i]? = some role) :
    (⟨t.vars.length + i, value⟩ : Fact).holds (c.encode t set) = true ↔
      c.value t set role = value := by
  rw [encode, ← hlen, Fact.holds_append_map hrole]

theorem holds_phase_iff (hlen : c.state.length = t.vars.length) {value : Nat} :
    (⟨t.vars.length, value⟩ : Fact).holds (c.encode t set) = true ↔ c.phase = value :=
  holds_encode_iff hlen (roles_phase set)

/-- The situation after an operator with further effects on new variables: it is enough to look at
the effects on the variable of each role. -/
theorem apply_extend_encode (hlen : c.state.length = t.vars.length) {c' : Situation}
    {op : Operator} (hw : op.Within t.vars.length) (fs : List Fact) {es : List Effect}
    (hes : ∀ e ∈ es, t.vars.length ≤ e.var) (hstate : op.apply c.state = c'.state)
    (h : ∀ role ∈ roles set, Effect.overwrite (c.encode t set) (c.value t set role)
      (es.filter fun e => e.var == t.vars.length + role.index set) = c'.value t set role) :
    (op.extend fs es).apply (c.encode t set) = c'.encode t set := by
  rw [encode, encode, ← hstate]
  refine Operator.apply_extend_append (hlen ▸ hw) fs (hlen ▸ hes) fun i role hrole => ?_
  rw [index_of_getElem?_roles hrole, hlen]
  exact h role (List.mem_of_getElem? hrole)

end Situation

/-- The situation at the start. -/
def start (t : Task) : Situation := ⟨[], t.init, 0, fun _ => 0⟩

/-! ## The new task -/

theorem vars_addSatisfaction (addGoals : Bool) (t : Task) (p : Property) :
    (addSatisfaction addGoals t p).vars =
      t.vars ++ [⟨"var" ++ toString t.nextVar, -1, satisfactionValues p⟩] := by
  cases addGoals <;> rfl

theorem init_addSatisfaction (addGoals : Bool) (t : Task) (p : Property) :
    (addSatisfaction addGoals t p).init = t.init ++ [0] := by
  cases addGoals <;> rfl

theorem goal_addSatisfaction (addGoals : Bool) (t : Task) (p : Property) :
    (addSatisfaction addGoals t p).goal =
      t.goal ++ if addGoals then [⟨t.vars.length, 1⟩] else [] := by
  cases addGoals
  · rw [if_neg Bool.false_ne_true, List.append_nil]
    rfl
  · rfl

theorem operators_addSatisfaction (addGoals : Bool) (t : Task) (p : Property) :
    (addSatisfaction addGoals t p).operators = t.operators := by
  cases addGoals <;> rfl

/-- What adding the variables of properties makes of a task. -/
theorem foldl_addSatisfaction (addGoals : Bool) (t : Task) (ps : List Property) :
    let t' := ps.foldl (addSatisfaction addGoals) t
    t'.vars.length = t.vars.length + ps.length ∧
      t'.init = t.init ++ List.replicate ps.length 0 ∧
      t'.goal = t.goal ++
        (if addGoals then (List.range ps.length).map fun j => ⟨t.vars.length + j, 1⟩ else []) ∧
      t'.operators = t.operators := by
  induction ps generalizing t with
  | nil => cases addGoals <;> simp
  | cons p ps ih =>
    obtain ⟨hvars, hinit, hgoal, hops⟩ := ih (addSatisfaction addGoals t p)
    rw [vars_addSatisfaction, List.length_append, List.length_singleton] at hvars hgoal
    rw [List.foldl_cons]
    refine ⟨by rw [hvars, List.length_cons]; omega, ?_, ?_, ?_⟩
    · rw [hinit, init_addSatisfaction, List.length_cons, List.replicate_succ, List.append_assoc]
      rfl
    · rw [hgoal, goal_addSatisfaction]
      cases addGoals
      · simp
      · simp [List.range_succ_eq_map, Function.comp_def, Nat.add_assoc, Nat.add_comm 1]
    · rw [hops, operators_addSatisfaction]

/-- The operator that changes the phase. -/
def changeOperator (t : Task) : Operator :=
  .ofEffects changeToEvaluation [.assign t.vars.length (some 0) 1] 0

/-- An operator of the task as it is in the new one. -/
def ownOperator (t : Task) (set : PropertySet) (op : Operator) : Operator :=
  op.extend [⟨t.vars.length, 0⟩]
    (recordEffects op (t.vars.length + (1 + set.properties.length)) set.actionSets.sets)

/-- The sets with the variables that record their use. -/
def usedVars (t : Task) (set : PropertySet) : List (String × VarId) :=
  usedVarsFrom (t.vars.length + (1 + set.properties.length)) set.actionSets.sets

/-- What a compilation made. -/
structure Result (options : CompileOptions) (t : Task) (set : PropertySet) (compiled : Compiled)
    (checks : List (List Operator)) : Prop where
  checks_eq : traverse (checkProperty (usedVars t set) t.vars.length options.negativeActions)
    (set.properties.zip (satisfactionVars (t.vars.length + 1) set.properties)) = .ok checks
  init : compiled.task.init =
    t.init ++ 0 :: (List.replicate set.properties.length 0
      ++ List.replicate set.actionSets.sets.length 0)
  goal : compiled.task.goal = t.goal ++
    (if options.addGoals then
      (List.range set.properties.length).map fun j => ⟨t.vars.length + (1 + j), 1⟩ else [])
  operators : compiled.task.operators =
    t.operators.map (ownOperator t set) ++ changeOperator t :: checks.flatten
  usedVars_eq : compiled.usedVars = usedVars t set
  propertyVars : compiled.propertyVars = satisfactionVars (t.vars.length + 1) set.properties

/-- A compilation that succeeds makes the variables and operators that its result lists. -/
theorem exists_result {options : CompileOptions} {t : Task} {set : PropertySet}
    {compiled : Compiled} (h : compileActionSets options t set = .ok compiled) :
    ∃ checks, Result options t set compiled checks := by
  obtain ⟨hvars, hinit, hgoal, hops⟩ :=
    foldl_addSatisfaction options.addGoals (addPhases t) set.properties
  have hphased : (addPhases t).vars.length = t.vars.length + 1 := by simp [addPhases]
  rw [hphased] at hvars hgoal
  rw [Nat.add_assoc] at hvars
  rw [compileActionSets] at h
  simp only [usedVars_recordSets, task_recordSets, Task.nextVar, hphased, hvars] at h
  split at h
  · cases h
  · next checks hchecks =>
    cases h
    refine ⟨checks, hchecks, ?_, ?_, ?_, rfl, rfl⟩
    · rw [markSoftGoals, hinit]
      simp [addPhases]
    · rw [markSoftGoals, hgoal]
      simp [addPhases, Nat.add_assoc]
    · rw [markSoftGoals, hops, recordAll]
      simp [addPhases, ownOperator, changeOperator, Function.comp_def, Task.nextVar,
        Operator.addPrevail_eq_extend]

/-! ## The operators of the new task -/

section

variable {t : Task} {set : PropertySet} {c : Situation}

/-- An operator of the task is applicable in the first phase, where it was applicable. -/
theorem isApplicable_ownOperator (hlen : c.state.length = t.vars.length) {op : Operator}
    (hw : op.Within t.vars.length) :
    (ownOperator t set op).isApplicable (c.encode t set) = true ↔
      op.isApplicable c.state = true ∧ c.phase = 0 := by
  rw [ownOperator, Situation.encode, Operator.isApplicable_extend_append (hlen ▸ hw),
    ← Situation.encode, List.forall_mem_singleton, Situation.holds_phase_iff hlen]
  refine and_congr_right fun _ => and_iff_left ?_
  intro e he f hf
  obtain ⟨j, rfl⟩ := mem_recordEffects he
  cases hf

/-- An operator of the task, executed in the new one. -/
def Situation.act (c : Situation) (i : Nat) (op : Operator) : Situation :=
  { c with path := c.path ++ [i], state := op.apply c.state }

theorem apply_ownOperator (hlen : c.state.length = t.vars.length) {i : Nat} {op : Operator}
    (hop : t.operators[i]? = some op) (hw : op.Within t.vars.length) :
    (ownOperator t set op).apply (c.encode t set) = (c.act i op).encode t set := by
  refine Situation.apply_extend_encode hlen hw _ ?_ rfl fun role hrole => ?_
  · intro e he
    obtain ⟨j, rfl⟩ := mem_recordEffects he
    exact Nat.le_trans (Nat.le_add_right _ _) (Nat.le_add_right _ _)
  · cases role with
    | phase =>
      rw [filter_recordEffects_of_lt op _ (by rw [Role.index]; omega)]
      rfl
    | satisfied j =>
      have hj := lt_of_mem_roles_satisfied hrole
      rw [filter_recordEffects_of_lt op _ (by rw [Role.index]; omega)]
      rfl
    | used j =>
      have hindex : t.vars.length + (Role.used j).index set =
          t.vars.length + (1 + set.properties.length) + j := by
        rw [Role.index]
        omega
      rw [hindex, filter_recordEffects]
      simp only [Situation.value, Situation.act]
      cases set.actionSets.sets[j]? with
      | none => rfl
      | some s =>
        simp only [Option.any_some, Task.uses_concat, hop]
        by_cases hs : op.isIn s = true <;> simp [hs]

/-- The change to the second phase. -/
def Situation.change (c : Situation) : Situation := { c with phase := 1 }

/-- The operator that changes the phase is applicable in the first one. -/
theorem isApplicable_changeOperator (hlen : c.state.length = t.vars.length) :
    (changeOperator t).isApplicable (c.encode t set) = true ↔ c.phase = 0 := by
  rw [Operator.isApplicable_iff, ← Situation.holds_phase_iff hlen, Fact.holds_iff]
  exact List.forall_mem_singleton

theorem apply_changeOperator (hlen : c.state.length = t.vars.length) :
    (changeOperator t).apply (c.encode t set) = c.change.encode t set := by
  have hextend : changeOperator t =
      (Operator.ofEffects changeToEvaluation [] 0).extend [] [.assign t.vars.length (some 0) 1] :=
    rfl
  rw [hextend]
  refine Situation.apply_extend_encode hlen (Operator.within_ofEffects_nil _ _ _) _ ?_ rfl ?_
  · rintro e (_ | ⟨_, ⟨⟩⟩)
    exact Nat.le_refl _
  · intro role hrole
    cases role with
    | phase => simp [Role.index, Situation.value, Situation.change]
    | satisfied j => simp [Role.index, Situation.value, Situation.change]
    | used j => simp [Role.index, Situation.value, Situation.change, Nat.add_assoc]

end

end Phases

end PlanConstraints

import PlanConstraints.Compile.Modes
import PlanConstraints.Proofs.Compile.Checking
import PlanConstraints.Proofs.Task.Additions

set_option autoImplicit false

/-!
# What a compilation adds: action sets

Phases, properties and the use of action sets get variables behind those of the task, and checking
operators have effects on the variables of properties: the compiled task is the task with additions,
whose values may be marked as soft goals (`appendsTo_compileActionSets`).
-/

namespace PlanConstraints

/-- The name that a value of the task has in the compiled one: in the dialect of action sets, values
are marked as soft goals. -/
def Dialect.valueName (dialect : Dialect) (options : CompileOptions) (set : PropertySet) :
    String → String :=
  match dialect with
  | actionSets => markValue options.softMark set.softGoals
  | temporal => id

namespace Task.AppendsTo

variable {t t' : Task} {rename : String → String}

/-! ## Recording the use of sets -/

theorem recordingAdd {r : Recording} (h : AppendsTo rename t r.task) (s : ActionSet) :
    AppendsTo rename t (r.add t.operators.length s).task := by
  have hnew : t.IsNew (r.task.addStateVariable (usedValues s.name) 0) r.task.nextVar :=
    h.isNew_nextVar _ _
  refine (h.addStateVariable (usedValues s.name) 0).mapOwnOperators fun op => ?_
  unfold Operator.record
  split
  · rw [Operator.addEffect_eq_extend]
    exact Operator.extendsTo_addEffects op (List.forall_mem_singleton.mpr hnew)
  · exact .refl _ op

/-- The operators of the first task record the use of sets. -/
theorem recordSets (h : AppendsTo rename t t') (sets : ActionSets) :
    AppendsTo rename t (PlanConstraints.recordSets t' t.operators.length sets).task := by
  suffices hfold : ∀ r : Recording, AppendsTo rename t r.task →
      AppendsTo rename t (sets.sets.foldl (Recording.add t.operators.length) r).task from
    hfold ⟨t', [], []⟩ h
  induction sets.sets with
  | nil => exact fun r hr => hr
  | cons s more ih => exact fun r hr => ih _ (hr.recordingAdd s)

/-! ## Phases and properties -/

theorem addPhases (t : Task) : AppendsTo id t (addPhases t) := by
  have hvariable := (refl t).addStateVariable ["phase_0", "phase_1"] 0
  have hphase : t.IsNew (t.addStateVariable ["phase_0", "phase_1"] 0) t.nextVar :=
    (refl t).isNew_nextVar _ _
  have hown := hvariable.mapOperators fun op =>
    Operator.extendsTo_addPrevail op (f := ⟨t.nextVar, 0⟩) hphase
  refine hown.addOperators (List.forall_mem_singleton.mpr (List.forall_mem_singleton.mpr ?_))
  exact hphase

theorem addSatisfaction (h : AppendsTo rename t t') (addGoals : Bool) (p : Property) :
    AppendsTo rename t (addSatisfaction addGoals t' p) := by
  have hvariable := h.addStateVariable (satisfactionValues p) 0
  cases addGoals with
  | false => exact hvariable
  | true => exact hvariable.addGoal _

theorem foldl_addSatisfaction (h : AppendsTo rename t t') (addGoals : Bool) (ps : List Property) :
    AppendsTo rename t (ps.foldl (PlanConstraints.addSatisfaction addGoals) t') := by
  induction ps generalizing t' with
  | nil => exact h
  | cons p ps ih => exact ih (h.addSatisfaction addGoals p)

end Task.AppendsTo

/-! ## Checking operators -/

/-- Every operator that checks a property is one for a formula. -/
theorem exists_checking_of_checkProperty {usedVars : List (String × VarId)} {phase var : VarId}
    {negative : Bool} {p : Property} {ops : List Operator}
    (h : checkProperty usedVars phase negative (p, var) = .ok ops) {op : Operator}
    (hop : op ∈ ops) :
    ∃ k f checks, k.phase = phase ∧ k.satisfaction = var ∧
      checkFormula usedVars k f = .ok checks ∧ op ∈ checks := by
  obtain ⟨confirming, hconfirming, -, hall⟩ := exists_of_checkProperty h
  rcases hall op hop with hop | ⟨refuting, hrefuting, hop⟩
  · exact ⟨_, _, confirming, rfl, rfl, hconfirming, hop⟩
  · exact ⟨_, _, refuting, rfl, rfl, hrefuting, hop⟩

/-- The operators that check a property have effects on its variable only. -/
theorem effects_of_checkProperty {usedVars : List (String × VarId)} {phase var : VarId}
    {negative : Bool} {p : Property} {ops : List Operator}
    (h : checkProperty usedVars phase negative (p, var) = .ok ops) {op : Operator}
    (hop : op ∈ ops) : ∀ e ∈ op.effects, e.var = var := by
  obtain ⟨k, f, checks, -, rfl, hchecks, hop⟩ := exists_checking_of_checkProperty h hop
  obtain ⟨number, tests, rfl⟩ := exists_eq_operator_of_checkFormula hchecks hop
  exact List.forall_mem_singleton.mpr rfl

/-! ## Compilation -/

/-- The variables of properties are new. -/
theorem isNew_of_mem_satisfactionVars (addGoals : Bool) (t : Task) (ps : List Property) :
    ∀ var ∈ satisfactionVars (addPhases t).nextVar ps,
      t.IsNew (ps.foldl (addSatisfaction addGoals) (addPhases t)) var := by
  intro var hvar
  obtain ⟨hle, hlt⟩ := List.mem_range'_1.mp hvar
  refine ⟨Nat.le_trans (Task.AppendsTo.addPhases t).length_le hle, ?_⟩
  rw [(Phases.foldl_addSatisfaction addGoals (addPhases t) ps).1]
  exact hlt

/-- Compiling properties over action sets adds to the task, and marks values as soft goals. -/
theorem appendsTo_compileActionSets {options : CompileOptions} {t : Task} {set : PropertySet}
    {compiled : Compiled} (h : compileActionSets options t set = .ok compiled) :
    Task.AppendsTo (markValue options.softMark set.softGoals) t compiled.task := by
  have hproperties := (Task.AppendsTo.addPhases t).foldl_addSatisfaction options.addGoals
    set.properties
  have hrecorded := hproperties.recordSets set.actionSets
  unfold compileActionSets at h
  simp only at h
  split at h
  · cases h
  · next checks hchecks =>
    cases h
    refine (hrecorded.addOperators fun op hop e he => ?_).renameValues _
    obtain ⟨ops, hops, hop⟩ := List.mem_flatten.mp hop
    obtain ⟨⟨p, var⟩, hpair, hcheck⟩ := mem_of_mem_traverse hchecks hops
    rw [effects_of_checkProperty hcheck hop e he]
    refine (isNew_of_mem_satisfactionVars options.addGoals t set.properties var
      (List.of_mem_zip hpair).2).mono ?_
    rw [task_recordSets, List.length_append]
    exact Nat.le_add_right _ _

end PlanConstraints

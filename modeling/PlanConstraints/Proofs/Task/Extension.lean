import PlanConstraints.Proofs.Task.Execution

set_option autoImplicit false

/-!
# Operators with further conditions and effects

A compilation gives the operators of a task further conditions and effects on new variables, and
adds operators that speak of new variables only.  A state of the new task is a state of the old one
with the values of the new variables behind it; on the old variables the operators do what they did.
-/

namespace PlanConstraints

namespace Operator

/-- The operator with further conditions and effects. -/
def extend (op : Operator) (conditions : List Fact) (effects : List Effect) : Operator :=
  { op with prevail := op.prevail ++ conditions, effects := op.effects ++ effects }

@[simp] theorem extend_cost (op : Operator) (fs : List Fact) (es : List Effect) :
    (op.extend fs es).cost = op.cost := rfl

@[simp] theorem extend_nil (op : Operator) : op.extend [] [] = op := by
  simp [extend]

@[simp] theorem extend_extend (op : Operator) (fs gs : List Fact) (es ds : List Effect) :
    (op.extend fs es).extend gs ds = op.extend (fs ++ gs) (es ++ ds) := by
  simp [extend]

theorem addEffect_eq_extend (op : Operator) (e : Effect) : op.addEffect e = op.extend [] [e] := by
  simp [addEffect, extend]

theorem addPrevail_eq_extend (op : Operator) (f : Fact) : op.addPrevail f = op.extend [f] [] := by
  simp [addPrevail, extend]

/-- Every operator is one that does nothing, with its conditions and effects. -/
theorem eq_extend (op : Operator) :
    op = (ofEffects op.name [] op.cost).extend op.prevail op.effects := rfl

/-- The operator speaks of variables below `n` only. -/
def Within (n : Nat) (op : Operator) : Prop := ∀ f ∈ Task.operatorFacts op, f.var < n

theorem within_ofEffects_nil (n : Nat) (name : String) (cost : Int) :
    (ofEffects name [] cost).Within n := by
  simp [Within, mem_operatorFacts, preconditions, ofEffects]

theorem Within.precondition {n : Nat} {op : Operator} (h : op.Within n) {f : Fact}
    (hf : f ∈ op.preconditions) : f.var < n := h f (mem_operatorFacts.mpr (.inl hf))

theorem Within.effect {n : Nat} {op : Operator} (h : op.Within n) {e : Effect}
    (he : e ∈ op.effects) : e.var < n :=
  h e.result (mem_operatorFacts.mpr (.inr ⟨e, he, .inl rfl⟩))

theorem Within.condition {n : Nat} {op : Operator} (h : op.Within n) {e : Effect}
    (he : e ∈ op.effects) {f : Fact} (hf : f ∈ e.conditions) : f.var < n :=
  h f (mem_operatorFacts.mpr (.inr ⟨e, he, .inr hf⟩))

theorem mem_preconditions_extend {op : Operator} {fs : List Fact} {es : List Effect} {f : Fact} :
    f ∈ (op.extend fs es).preconditions ↔
      f ∈ op.preconditions ∨ f ∈ fs ∨ ∃ e ∈ es, e.precondition? = some f := by
  simp only [preconditions, extend, List.mem_append, List.filterMap_append, List.mem_filterMap]
  exact or_or_or_comm

/-! ## States with further variables -/

theorem isApplicable_append {op : Operator} {s : Assignment} (hw : op.Within s.length)
    (x : Assignment) : op.isApplicable (s ++ x) = op.isApplicable s := by
  rw [Bool.eq_iff_iff, isApplicable_iff, isApplicable_iff]
  have hsame : ∀ f ∈ op.preconditions, (s ++ x)[f.var]? = s[f.var]? := fun f hf =>
    List.getElem?_append_left (hw.precondition hf)
  exact ⟨fun h f hf => hsame f hf ▸ h f hf, fun h f hf => (hsame f hf).symm ▸ h f hf⟩

/-- An operator with further conditions and effects is applicable if it was, and they allow it. -/
theorem isApplicable_extend_append {op : Operator} {s : Assignment} (hw : op.Within s.length)
    (x : Assignment) (fs : List Fact) (es : List Effect) :
    (op.extend fs es).isApplicable (s ++ x) = true ↔
      op.isApplicable s = true ∧ (∀ f ∈ fs, f.holds (s ++ x) = true) ∧
        ∀ e ∈ es, ∀ f, e.precondition? = some f → f.holds (s ++ x) = true := by
  rw [← isApplicable_append hw x, isApplicable, isApplicable, List.all_eq_true, List.all_eq_true]
  constructor
  · intro h
    exact ⟨fun f hf => h f (mem_preconditions_extend.mpr (.inl hf)),
      fun f hf => h f (mem_preconditions_extend.mpr (.inr (.inl hf))),
      fun e he f hf => h f (mem_preconditions_extend.mpr (.inr (.inr ⟨e, he, hf⟩)))⟩
  · rintro ⟨hop, hfs, hes⟩ f hf
    rcases mem_preconditions_extend.mp hf with hf | hf | ⟨e, he, hf⟩
    · exact hop f hf
    · exact hfs f hf
    · exact hes e he f hf

theorem effectsOn_extend (op : Operator) (fs : List Fact) (es : List Effect) (v : VarId) :
    (op.extend fs es).effectsOn v = op.effectsOn v ++ es.filter fun e => e.var == v := by
  simp [effectsOn, extend]

theorem Within.effectsOn_eq_nil {n : Nat} {op : Operator} (h : op.Within n) {v : Nat}
    (hv : n ≤ v) : op.effectsOn v = [] := by
  rw [effectsOn, List.filter_eq_nil_iff]
  intro e he heq
  have hlt : e.var < n := h.effect he
  rw [beq_iff_eq] at heq
  lia

/-- On the old variables, an operator does what it did. -/
theorem getElem?_apply_extend_append {op : Operator} {s : Assignment} (hw : op.Within s.length)
    (x : Assignment) (fs : List Fact) {es : List Effect} (hes : ∀ e ∈ es, s.length ≤ e.var)
    {v : Nat} (hv : v < s.length) :
    ((op.extend fs es).apply (s ++ x))[v]? = (op.apply s)[v]? := by
  have hnone : (es.filter fun e => e.var == v) = [] := by
    rw [List.filter_eq_nil_iff]
    intro e he heq
    have hle := hes e he
    rw [beq_iff_eq] at heq
    omega
  rw [getElem?_apply, getElem?_apply, effectsOn_extend, hnone, List.append_nil,
    List.getElem?_append_left hv]
  congr 1
  funext value
  exact Effect.overwrite_congr fun e he f hf =>
    List.getElem?_append_left (hw.condition (mem_effectsOn.mp he).1 hf)

/-- The state after an operator, when the new variables stand for things with values: it is enough
to look at the effects on the variable of each. -/
theorem apply_extend_append {ρ : Type} {op : Operator} {s : Assignment}
    (hw : op.Within s.length) (fs : List Fact) {es : List Effect} {roles : List ρ}
    {value value' : ρ → Nat} (hes : ∀ e ∈ es, s.length ≤ e.var)
    (h : ∀ j role, roles[j]? = some role →
      Effect.overwrite (s ++ roles.map value) (value role)
        (es.filter fun e => e.var == s.length + j) = value' role) :
    (op.extend fs es).apply (s ++ roles.map value) = op.apply s ++ roles.map value' := by
  apply List.ext_getElem?
  intro v
  by_cases hv : v < s.length
  · rw [getElem?_apply_extend_append hw _ _ hes hv,
      List.getElem?_append_left (by rw [length_apply]; exact hv)]
  · obtain ⟨j, rfl⟩ : ∃ j, v = s.length + j := ⟨v - s.length, by omega⟩
    rw [getElem?_apply, effectsOn_extend, hw.effectsOn_eq_nil (Nat.le_add_right _ _),
      List.nil_append, List.getElem?_append_right (Nat.le_add_right _ _),
      List.getElem?_append_right (by rw [length_apply]; exact Nat.le_add_right _ _),
      length_apply, Nat.add_sub_cancel_left, List.getElem?_map, List.getElem?_map]
    cases hrole : roles[j]? with
    | none => rfl
    | some role => simp only [Option.map_some, h j role hrole]

end Operator

/-- The operators of a consistent task speak of its variables only. -/
theorem Task.Consistent.within {t : Task} (hc : t.Consistent) {op : Operator}
    (hop : op ∈ t.operators) : op.Within t.vars.length := fun f hf =>
  (hc.operator op hop f hf).var_lt

/-- A fact of the old variables. -/
theorem Fact.holds_append {s : Assignment} {f : Fact} (hf : f.var < s.length) (x : Assignment) :
    f.holds (s ++ x) = f.holds s := Fact.holds_congr (List.getElem?_append_left hf)

/-- A fact of a variable behind the old ones, when these stand for things with values. -/
theorem Fact.holds_append_map {ρ : Type} {s : Assignment} {roles : List ρ} {f : ρ → Nat} {i : Nat}
    {value : Nat} {role : ρ} (hrole : roles[i]? = some role) :
    (⟨s.length + i, value⟩ : Fact).holds (s ++ roles.map f) = true ↔ f role = value := by
  rw [Fact.holds_iff, List.getElem?_append_right (Nat.le_add_right _ _), Nat.add_sub_cancel_left,
    List.getElem?_map, hrole, Option.map_some, Option.some_inj]

/-! ## Extending a task -/

namespace Task

variable (t : Task) (values : List String) (init : Nat) (f : Fact) (op : Operator)
  (change : Operator → Operator)

@[simp] theorem vars_addStateVariable : (t.addStateVariable values init).vars =
    t.vars ++ [⟨"var" ++ toString t.nextVar, -1, values⟩] := rfl

@[simp] theorem init_addStateVariable : (t.addStateVariable values init).init = t.init ++ [init] :=
  rfl

@[simp] theorem goal_addStateVariable : (t.addStateVariable values init).goal = t.goal := rfl

@[simp] theorem operators_addStateVariable :
    (t.addStateVariable values init).operators = t.operators := rfl

@[simp] theorem vars_addGoal : (t.addGoal f).vars = t.vars := rfl

@[simp] theorem init_addGoal : (t.addGoal f).init = t.init := rfl

@[simp] theorem goal_addGoal : (t.addGoal f).goal = t.goal ++ [f] := rfl

@[simp] theorem operators_addGoal : (t.addGoal f).operators = t.operators := rfl

@[simp] theorem vars_mapOperators : (t.mapOperators change).vars = t.vars := rfl

@[simp] theorem init_mapOperators : (t.mapOperators change).init = t.init := rfl

@[simp] theorem goal_mapOperators : (t.mapOperators change).goal = t.goal := rfl

@[simp] theorem operators_mapOperators :
    (t.mapOperators change).operators = t.operators.map change := rfl

@[simp] theorem vars_addOperator : (t.addOperator op).vars = t.vars := rfl

@[simp] theorem init_addOperator : (t.addOperator op).init = t.init := rfl

@[simp] theorem goal_addOperator : (t.addOperator op).goal = t.goal := rfl

@[simp] theorem operators_addOperator : (t.addOperator op).operators = t.operators ++ [op] := rfl

end Task

end PlanConstraints

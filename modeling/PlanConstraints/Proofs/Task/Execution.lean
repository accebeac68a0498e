import Mathlib.Data.List.Induction
import PlanConstraints.Compile.Basic
import PlanConstraints.Proofs.Formula.Truth
import PlanConstraints.Proofs.Task.Consistency
import PlanConstraints.Task.Plan

set_option autoImplicit false

/-!
# Executing operators

What an operator does to a state, variable by variable, and what a sequence of operators does.
Sequences are lists of the numbers of operators, since two operators of a task may look alike.

A state changes only through the effects on each variable: `Effect.overwrite` reads them from left
to right, and the last one whose conditions are true counts.  Everything else about `Operator.apply`
follows from `getElem?_apply`.
-/

namespace PlanConstraints

theorem Fact.holds_iff (state : Assignment) (f : Fact) :
    f.holds state = true ↔ state[f.var]? = some f.value := by
  simp [Fact.holds]

theorem Fact.toNat_holds (s : Assignment) (f : Fact) :
    (f.holds s).toNat = if s[f.var]? = some f.value then 1 else 0 := by
  have htruth := Fact.holds_iff s f
  by_cases hs : s[f.var]? = some f.value
  · rw [if_pos hs, htruth.mpr hs]
    rfl
  · rw [if_neg hs, Bool.eq_false_iff.mpr (mt htruth.mp hs)]
    rfl

/-- States that agree on the variable of a fact agree on the fact. -/
theorem Fact.holds_congr {s s' : Assignment} {f : Fact} (h : s'[f.var]? = s[f.var]?) :
    f.holds s' = f.holds s := by
  rw [Fact.holds, Fact.holds, h]

theorem Effect.fires_congr {s s' : Assignment} {e : Effect}
    (h : ∀ f ∈ e.conditions, s'[f.var]? = s[f.var]?) : e.fires s' = e.fires s := by
  have hconditions : ∀ f ∈ e.conditions, f.holds s' = f.holds s := fun f hf =>
    Fact.holds_congr (h f hf)
  rw [Effect.fires, Effect.fires, Bool.eq_iff_iff, List.all_eq_true, List.all_eq_true]
  exact ⟨fun hall f hf => hconditions f hf ▸ hall f hf,
    fun hall f hf => (hconditions f hf).symm ▸ hall f hf⟩

/-! ## The effects on one variable -/

/-- The value of a variable after the given effects on it, from the value before: every effect whose
conditions are true in the state replaces it. -/
def Effect.overwrite (state : Assignment) (value : Nat) (effects : List Effect) : Nat :=
  effects.foldl (fun value e => if e.fires state then e.post else value) value

namespace Effect

@[simp] theorem overwrite_nil (state : Assignment) (value : Nat) :
    overwrite state value [] = value := rfl

@[simp] theorem overwrite_cons (state : Assignment) (value : Nat) (e : Effect)
    (es : List Effect) :
    overwrite state value (e :: es) =
      overwrite state (if e.fires state then e.post else value) es := rfl

@[simp] theorem fires_assign (state : Assignment) (var : VarId) (pre : Option Nat) (post : Nat) :
    (assign var pre post).fires state = true := rfl

@[simp] theorem assign_var (var : VarId) (pre : Option Nat) (post : Nat) :
    (assign var pre post).var = var := rfl

@[simp] theorem assign_pre (var : VarId) (pre : Option Nat) (post : Nat) :
    (assign var pre post).pre = pre := rfl

@[simp] theorem assign_post (var : VarId) (pre : Option Nat) (post : Nat) :
    (assign var pre post).post = post := rfl

theorem overwrite_congr {s s' : Assignment} {value : Nat} {es : List Effect}
    (h : ∀ e ∈ es, ∀ f ∈ e.conditions, s'[f.var]? = s[f.var]?) :
    overwrite s' value es = overwrite s value es := by
  induction es generalizing value with
  | nil => rfl
  | cons e es ih =>
    rw [overwrite_cons, overwrite_cons, fires_congr (h e List.mem_cons_self)]
    exact ih fun e' he' => h e' (List.mem_cons_of_mem _ he')

/-- Effects leave a value or put one of theirs in its place. -/
theorem overwrite_cases (state : Assignment) (value : Nat) (es : List Effect) :
    overwrite state value es = value ∨ ∃ e ∈ es, overwrite state value es = e.post := by
  induction es generalizing value with
  | nil => exact .inl rfl
  | cons e es ih =>
    rw [overwrite_cons]
    rcases ih (if e.fires state then e.post else value) with hkeep | ⟨e', he', hpost⟩
    · rw [hkeep]
      by_cases hfires : e.fires state = true
      · exact .inr ⟨e, List.mem_cons_self, if_pos hfires⟩
      · exact .inl (if_neg hfires)
    · exact .inr ⟨e', List.mem_cons_of_mem _ he', hpost⟩

end Effect

namespace Operator

/-- The effects on one variable, in order. -/
def effectsOn (op : Operator) (v : VarId) : List Effect := op.effects.filter fun e => e.var == v

theorem mem_effectsOn {op : Operator} {v : VarId} {e : Effect} :
    e ∈ op.effectsOn v ↔ e ∈ op.effects ∧ e.var = v := by
  simp [effectsOn]

/-- Setting values one after the other, seen from one variable. -/
theorem getElem?_foldl_set (state current : Assignment) (es : List Effect) (v : Nat) :
    (es.foldl (fun next e => if e.fires state then next.set e.var e.post else next) current)[v]? =
      current[v]?.map fun value =>
        Effect.overwrite state value (es.filter fun e => e.var == v) := by
  induction es generalizing current with
  | nil => simp
  | cons e es ih =>
    rw [List.foldl_cons, ih, List.filter_cons]
    by_cases hvar : e.var = v
    · subst hvar
      by_cases hfires : e.fires state = true
      · rw [if_pos hfires, List.getElem?_set_self']
        cases current[e.var]? <;> simp [hfires]
      · simp [hfires]
    · by_cases hfires : e.fires state = true
      · rw [if_pos hfires, List.getElem?_set_ne hvar]
        simp [hvar]
      · simp [hfires, hvar]

/-- The value of a variable after an operator. -/
theorem getElem?_apply (op : Operator) (s : Assignment) (v : Nat) :
    (op.apply s)[v]? = s[v]?.map fun value => Effect.overwrite s value (op.effectsOn v) :=
  getElem?_foldl_set s s op.effects v

@[simp] theorem length_apply (op : Operator) (s : Assignment) :
    (op.apply s).length = s.length := by
  have hnone : ∀ v : Nat, s.length ≤ v ↔ (op.apply s).length ≤ v := fun v => by
    rw [← List.getElem?_eq_none_iff, ← List.getElem?_eq_none_iff, getElem?_apply,
      Option.map_eq_none_iff]
  exact Nat.le_antisymm ((hnone s.length).mp (Nat.le_refl _))
    ((hnone (op.apply s).length).mpr (Nat.le_refl _))

theorem isApplicable_iff (op : Operator) (s : Assignment) :
    op.isApplicable s = true ↔ ∀ f ∈ op.preconditions, s[f.var]? = some f.value := by
  simp [isApplicable, Fact.holds_iff]

/-- The values of an operator are those of its conditions and effects. -/
theorem mem_operatorFacts {op : Operator} {f : Fact} :
    f ∈ Task.operatorFacts op ↔ f ∈ op.preconditions ∨
      ∃ e ∈ op.effects, f = e.result ∨ f ∈ e.conditions := by
  simp [Task.operatorFacts, Task.effectFacts]

end Operator

/-! ## Sequences of operators -/

namespace Task

theorem run?_append (s : Assignment) (xs ys : List Operator) :
    run? s (xs ++ ys) = (run? s xs).bind fun s' => run? s' ys := by
  induction xs generalizing s with
  | nil => rfl
  | cons op xs ih =>
    rw [List.cons_append, run?, run?]
    split
    · exact ih _
    · rfl

/-- The operators of the given numbers, if there is one for each. -/
def operatorsAt? (t : Task) : List Nat → Option (List Operator)
  | [] => some []
  | i :: is =>
    match t.operators[i]?, t.operatorsAt? is with
    | some op, some ops => some (op :: ops)
    | _, _ => none

/-- The state that the operators of the given numbers lead to from the initial state, if there are
such operators and each is applicable in its turn. -/
def runAt? (t : Task) (numbers : List Nat) : Option Assignment :=
  (t.operatorsAt? numbers).bind (run? t.init)

/-- The operators of the given numbers are a plan that ends in the state. -/
def IsPlanTo (t : Task) (numbers : List Nat) (s : Assignment) : Prop :=
  t.runAt? numbers = some s ∧ t.isGoal s = true

/-- The operators of the task itself among those of a task with more operators. -/
def originals (t : Task) (numbers : List Nat) : List Nat :=
  numbers.filter fun i => i < t.operators.length

/-- The sum of the costs of the operators of the given numbers. -/
def cost (t : Task) (numbers : List Nat) : Int :=
  numbers.foldl (fun total i => total + (t.operators[i]?.map Operator.cost).getD 0) 0

/-- One of the operators of the given numbers belongs to the set. -/
def uses (t : Task) (numbers : List Nat) (set : ActionSet) : Bool :=
  numbers.any fun i => t.operators[i]?.any fun op => op.isIn set

/-- One of the operators of the given numbers belongs to the set that the atom names. -/
def usesNamed (t : Task) (sets : ActionSets) (numbers : List Nat) (a : Symbol) : Bool :=
  (sets.get? a.name).any (t.uses numbers)

theorem respectsNames_usesNamed (t : Task) (sets : ActionSets) (numbers : List Nat) :
    RespectsNames (t.usesNamed sets numbers) :=
  respectsNames_of_name fun name => (sets.get? name).any (t.uses numbers)

theorem operatorsAt?_append (t : Task) (xs ys : List Nat) :
    t.operatorsAt? (xs ++ ys) =
      (t.operatorsAt? xs).bind fun ops => (t.operatorsAt? ys).map (ops ++ ·) := by
  induction xs with
  | nil => simp [operatorsAt?]
  | cons i is ih =>
    rw [List.cons_append, operatorsAt?, operatorsAt?, ih]
    cases t.operators[i]? <;> cases t.operatorsAt? is <;> cases t.operatorsAt? ys <;> simp

@[simp] theorem runAt?_nil (t : Task) : t.runAt? [] = some t.init := rfl

/-- A sequence with one more operator at its end. -/
theorem runAt?_concat (t : Task) (numbers : List Nat) (i : Nat) :
    t.runAt? (numbers ++ [i]) =
      (t.runAt? numbers).bind fun s =>
        t.operators[i]?.bind fun op => if op.isApplicable s then some (op.apply s) else none := by
  unfold runAt?
  rw [operatorsAt?_append]
  cases t.operatorsAt? numbers with
  | none => rfl
  | some ops =>
    cases hop : t.operators[i]? with
    | none => simp [operatorsAt?, hop]
    | some op =>
      simp only [operatorsAt?, hop, Option.map_some, Option.bind_some, run?_append]
      rfl

theorem runAt?_concat_eq_some_iff {t : Task} {numbers : List Nat} {i : Nat} {s' : Assignment} :
    t.runAt? (numbers ++ [i]) = some s' ↔
      ∃ s op, t.runAt? numbers = some s ∧ t.operators[i]? = some op ∧
        op.isApplicable s = true ∧ op.apply s = s' := by
  rw [runAt?_concat]
  cases t.runAt? numbers with
  | none => simp
  | some s =>
    cases t.operators[i]? with
    | none => simp
    | some op => simp

/-- Every state of a run is reached by a part of it. -/
theorem exists_runAt?_of_append {t : Task} {xs ys : List Nat} {s : Assignment}
    (h : t.runAt? (xs ++ ys) = some s) : ∃ s', t.runAt? xs = some s' := by
  induction ys using List.reverseRecOn generalizing s with
  | nil => exact ⟨s, by simpa using h⟩
  | append_singleton ys i ih =>
    rw [← List.append_assoc] at h
    obtain ⟨s', _, hs', _⟩ := runAt?_concat_eq_some_iff.mp h
    exact ih hs'

/-- The operators of a run exist. -/
theorem lt_of_runAt? {t : Task} {numbers : List Nat} {s : Assignment}
    (h : t.runAt? numbers = some s) : ∀ i ∈ numbers, i < t.operators.length := by
  induction numbers using List.reverseRecOn generalizing s with
  | nil => simp
  | append_singleton numbers i ih =>
    obtain ⟨s', op, hs', hop, _⟩ := runAt?_concat_eq_some_iff.mp h
    intro j hj
    rcases List.mem_append.mp hj with hj | hj
    · exact ih hs' j hj
    · rw [List.mem_singleton.mp hj]
      exact (List.getElem?_eq_some_iff.mp hop).1

theorem originals_append (t : Task) (xs ys : List Nat) :
    t.originals (xs ++ ys) = t.originals xs ++ t.originals ys := List.filter_append ..

@[simp] theorem originals_concat (t : Task) (numbers : List Nat) (i : Nat) :
    t.originals (numbers ++ [i]) =
      t.originals numbers ++ if i < t.operators.length then [i] else [] := by
  by_cases h : i < t.operators.length <;> simp [originals, h]

theorem originals_eq_nil (t : Task) {numbers : List Nat}
    (h : ∀ i ∈ numbers, t.operators.length ≤ i) : t.originals numbers = [] := by
  rw [originals, List.filter_eq_nil_iff]
  intro i hi
  simpa using h i hi

/-- The operators of a run are those of the task. -/
theorem originals_of_runAt? {t : Task} {numbers : List Nat} {s : Assignment}
    (h : t.runAt? numbers = some s) : t.originals numbers = numbers := by
  rw [originals, List.filter_eq_self]
  intro i hi
  exact decide_eq_true (lt_of_runAt? h i hi)

@[simp] theorem cost_nil (t : Task) : t.cost [] = 0 := rfl

@[simp] theorem cost_concat (t : Task) (numbers : List Nat) (i : Nat) :
    t.cost (numbers ++ [i]) = t.cost numbers + (t.operators[i]?.map Operator.cost).getD 0 := by
  simp [cost]

@[simp] theorem uses_nil (t : Task) (set : ActionSet) : t.uses [] set = false := rfl

@[simp] theorem uses_concat (t : Task) (numbers : List Nat) (i : Nat) (set : ActionSet) :
    t.uses (numbers ++ [i]) set =
      (t.uses numbers set || t.operators[i]?.any fun op => op.isIn set) := by
  simp [uses]

/-! ## States -/

/-- Every variable has one of its values. -/
structure IsState (t : Task) (s : Assignment) : Prop where
  length_eq : s.length = t.vars.length
  inDomain : ∀ var value, s[var]? = some value → t.InDomain ⟨var, value⟩

theorem Consistent.isState_init {t : Task} (hc : t.Consistent) : t.IsState t.init :=
  ⟨hc.length_init, hc.init⟩

theorem IsState.apply {t : Task} (hc : t.Consistent) {op : Operator} (hop : op ∈ t.operators)
    {s : Assignment} (hs : t.IsState s) : t.IsState (op.apply s) := by
  refine ⟨by rw [Operator.length_apply, hs.length_eq], fun var value hvalue => ?_⟩
  rw [Operator.getElem?_apply] at hvalue
  obtain ⟨old, hold, rfl⟩ := Option.map_eq_some_iff.mp hvalue
  rcases Effect.overwrite_cases s old (op.effectsOn var) with hkeep | ⟨e, he, hpost⟩
  · rw [hkeep]
    exact hs.inDomain var old hold
  · rw [hpost]
    obtain ⟨hmem, rfl⟩ := Operator.mem_effectsOn.mp he
    exact hc.operator op hop _ (Operator.mem_operatorFacts.mpr (.inr ⟨e, hmem, .inl rfl⟩))

theorem isState_of_runAt? {t : Task} (hc : t.Consistent) {numbers : List Nat} {s : Assignment}
    (h : t.runAt? numbers = some s) : t.IsState s := by
  induction numbers using List.reverseRecOn generalizing s with
  | nil =>
    cases h
    exact hc.isState_init
  | append_singleton numbers i ih =>
    obtain ⟨s', op, hs', hop, _, rfl⟩ := runAt?_concat_eq_some_iff.mp h
    exact (ih hs').apply hc (List.mem_of_getElem? hop)

end Task

end PlanConstraints

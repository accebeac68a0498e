import PlanConstraints.Task.Check

set_option autoImplicit false

/-!
# Consistent tasks

What the check of a task establishes, as one structure: the initial state is complete, every
variable has at least two values, and whatever the task says of a variable is one of its values.
In the states that such a task can reach every variable has one of its values.
-/

namespace PlanConstraints

namespace Task

/-- The variable of the fact exists and has the value. -/
def InDomain (t : Task) (f : Fact) : Prop :=
  ∃ v, t.vars[f.var]? = some v ∧ f.value < v.values.length

/-- What the initial state, the goal and the operators say of variables are values that exist. -/
structure Consistent (t : Task) : Prop where
  length_init : t.init.length = t.vars.length
  two_le : ∀ v ∈ t.vars, 2 ≤ v.values.length
  init : ∀ var value, t.init[var]? = some value → t.InDomain ⟨var, value⟩
  goal : ∀ f ∈ t.goal, t.InDomain f
  operator : ∀ op ∈ t.operators, ∀ f ∈ operatorFacts op, t.InDomain f

theorem InDomain.var_lt {t : Task} {f : Fact} (h : t.InDomain f) : f.var < t.vars.length := by
  obtain ⟨v, hv, _⟩ := h
  exact (List.getElem?_eq_some_iff.mp hv).1

theorem checkFact_eq_ok_iff (t : Task) (f : Fact) : t.checkFact f = .ok () ↔ t.InDomain f := by
  unfold checkFact InDomain
  cases t.vars[f.var]? with
  | none => simp
  | some v => by_cases h : f.value < v.values.length <;> simp [h]

theorem checkFacts_eq_ok_iff (t : Task) (fs : List Fact) :
    t.checkFacts fs = .ok () ↔ ∀ f ∈ fs, t.InDomain f := by
  induction fs with
  | nil => simp [checkFacts]
  | cons f fs ih =>
    rw [checkFacts, List.forall_mem_cons, ← checkFact_eq_ok_iff, ← ih]
    cases t.checkFact f with
    | error e => simp
    | ok u => simp

/-- The variables of the check are those of the task from `var` on, with their initial values. -/
theorem checkVariables_eq_ok_iff (t : Task) (var : Nat) (vs : List Variable)
    (values : List Nat) (hlen : values.length = vs.length) :
    t.checkVariables var vs values = .ok () ↔
      (∀ v ∈ vs, 2 ≤ v.values.length) ∧
        ∀ i value, values[i]? = some value → t.InDomain ⟨var + i, value⟩ := by
  induction vs generalizing var values with
  | nil =>
    have : values = [] := by simpa using hlen
    subst this
    simp [checkVariables]
  | cons v vs ih =>
    cases values with
    | nil => simp at hlen
    | cons value values =>
      have hrest := ih (var + 1) values (by simpa using hlen)
      have hshift : (∀ i w, (value :: values)[i]? = some w → t.InDomain ⟨var + i, w⟩) ↔
          t.InDomain ⟨var, value⟩ ∧
            ∀ i w, values[i]? = some w → t.InDomain ⟨var + 1 + i, w⟩ := by
        constructor
        · intro h
          refine ⟨h 0 value rfl, fun i w hw => ?_⟩
          rw [show var + 1 + i = var + (i + 1) by omega]
          exact h (i + 1) w hw
        · rintro ⟨hzero, hsucc⟩ i w hw
          cases i with
          | zero => cases hw; exact hzero
          | succ i =>
            rw [show var + (i + 1) = var + 1 + i by omega]
            exact hsucc i w hw
      rw [checkVariables, List.forall_mem_cons, hshift, ← checkFact_eq_ok_iff]
      by_cases hsize : v.values.length < 2
      · simp only [hsize, if_true, reduceCtorEq, false_iff]
        omega
      · rw [if_neg hsize]
        cases t.checkFact ⟨var, value⟩ with
        | error e => simp
        | ok u =>
          simp only [hrest, true_and]
          constructor
          · rintro ⟨htwo, hdom⟩
            exact ⟨⟨by omega, htwo⟩, hdom⟩
          · rintro ⟨⟨_, htwo⟩, hdom⟩
            exact ⟨htwo, hdom⟩

/-- The check succeeds exactly on the consistent tasks. -/
theorem check_eq_ok_iff (t : Task) : t.check = .ok () ↔ t.Consistent := by
  unfold check
  by_cases hlen : t.init.length = t.vars.length
  · rw [if_neg (not_not_intro hlen)]
    have hvars := checkVariables_eq_ok_iff t 0 t.vars t.init hlen
    have hfacts := checkFacts_eq_ok_iff t (t.goal ++ t.operators.flatMap operatorFacts)
    simp only [Nat.zero_add] at hvars
    simp only [List.mem_append, List.mem_flatMap] at hfacts
    constructor
    · intro h
      split at h
      · cases h
      · next hok =>
        have hv := hvars.mp hok
        have hf := hfacts.mp h
        exact ⟨hlen, hv.1, hv.2, fun f hf' => hf f (.inl hf'),
          fun op hop f hf' => hf f (.inr ⟨op, hop, hf'⟩)⟩
    · intro h
      rw [hvars.mpr ⟨h.two_le, h.init⟩]
      refine hfacts.mpr fun f hf => ?_
      rcases hf with hf | ⟨op, hop, hf⟩
      · exact h.goal f hf
      · exact h.operator op hop f hf
  · rw [if_pos hlen]
    constructor
    · intro h
      cases h
    · intro h
      exact absurd h.length_init hlen

/-! ## Facts by name -/

theorem getElem?_of_findValue {name : String} {values : List String} {number i : Nat}
    (h : findValue name number values = some i) :
    ∃ j value, i = number + j ∧ values[j]? = some value ∧ factOfValue? value = some name := by
  induction values generalizing number with
  | nil => simp [findValue] at h
  | cons value values ih =>
    unfold findValue at h
    split at h
    · next hname =>
      cases h
      exact ⟨0, value, rfl, rfl, hname⟩
    · obtain ⟨j, value', rfl, hvalue, hname⟩ := ih h
      exact ⟨j + 1, value', by omega, hvalue, hname⟩

theorem getElem?_of_findFactFrom {name : String} {vs : List Variable} {var : VarId} {f : Fact}
    (h : findFactFrom name var vs = some f) :
    ∃ (i : Nat) (v : Variable) (value : String), f.var = var + i ∧ vs[i]? = some v ∧
      v.values[f.value]? = some value ∧ factOfValue? value = some name := by
  induction vs generalizing var with
  | nil => simp [findFactFrom] at h
  | cons v vs ih =>
    unfold findFactFrom at h
    split at h
    · next number hnumber =>
      cases h
      obtain ⟨j, value, rfl, hvalue, hname⟩ := getElem?_of_findValue hnumber
      exact ⟨0, v, value, rfl, rfl, by simpa using hvalue, hname⟩
    · obtain ⟨i, w, value, hvar, hw, hvalue, hname⟩ := ih h
      exact ⟨i + 1, w, value, by rw [hvar, Nat.add_right_comm, Nat.add_assoc], hw, hvalue, hname⟩

/-- A fact that is found by its name exists. -/
theorem inDomain_of_findFact? {t : Task} {name : String} {f : Fact}
    (h : t.findFact? name = some f) : t.InDomain f := by
  obtain ⟨i, v, value, hvar, hv, hvalue, -⟩ := getElem?_of_findFactFrom h
  refine ⟨v, ?_, (List.getElem?_eq_some_iff.mp hvalue).1⟩
  rw [hvar, Nat.zero_add]
  exact hv

theorem findValue_eq_none_iff {name : String} {values : List String} (number : Nat) :
    findValue name number values = none ↔ ∀ value ∈ values, factOfValue? value ≠ some name := by
  induction values generalizing number with
  | nil => simp [findValue]
  | cons value values ih =>
    rw [findValue, List.forall_mem_cons, ← ih (number + 1)]
    split
    · next h => simp [h]
    · next h => simp [h]

theorem findFactFrom_eq_none_iff {name : String} {vs : List Variable} (var : VarId) :
    findFactFrom name var vs = none ↔
      ∀ v ∈ vs, ∀ value ∈ v.values, factOfValue? value ≠ some name := by
  induction vs generalizing var with
  | nil => simp [findFactFrom]
  | cons v vs ih =>
    rw [findFactFrom, List.forall_mem_cons, ← ih (var + 1), ← findValue_eq_none_iff 0]
    cases findValue name 0 v.values <;> simp

theorem findFactFrom_eq_none {name : String} {vs : List Variable} (var : VarId)
    (h : ∀ v ∈ vs, ∀ value ∈ v.values, factOfValue? value = none) :
    findFactFrom name var vs = none :=
  (findFactFrom_eq_none_iff var).mpr fun v hv value hvalue => by
    rw [h v hv value hvalue]
    exact (Option.some_ne_none name).symm

theorem findFactFrom_append (name : String) (var : Nat) (vs ws : List Variable) :
    findFactFrom name var (vs ++ ws) =
      (findFactFrom name var vs <|> findFactFrom name (var + vs.length) ws) := by
  induction vs generalizing var with
  | nil => simp [findFactFrom]
  | cons v vs ih =>
    rw [List.cons_append, findFactFrom, findFactFrom]
    split
    · simp
    · rw [ih, List.length_cons, show var + 1 + vs.length = var + (vs.length + 1) by omega]

end Task

end PlanConstraints

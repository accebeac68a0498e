import PlanConstraints.Proofs.Compile.Phases

set_option autoImplicit false

/-!
# Checking properties

The operators that check a formula of a property are applicable in the second phase, and some of
them is exactly if the formula is true of the sets that were used.

`mem_operators` says which operators there are; `apply_checking` and `exists_isApplicable_checking`
say what they do to a situation.
-/

namespace PlanConstraints

/-! ## The operators of a formula -/

/-- The operators are those of the clauses that may be true. -/
theorem Checking.mem_operators {k : Checking} {usedVars : List (String × VarId)} {number : Nat}
    {cs : List (Clause Symbol)} {ops : List Operator} (h : k.operators usedVars number cs = .ok ops)
    {op : Operator} :
    op ∈ ops ↔ ∃ c i tests, (c, i) ∈ cs.zipIdx number ∧ c.isContradictory = false ∧
      traverse (literalTest usedVars k.property) c = .ok tests ∧ op = k.operator i tests := by
  induction cs generalizing number ops with
  | nil =>
    cases h
    simp
  | cons c cs ih =>
    unfold Checking.operators at h
    split at h
    · cases h
    · next tests htests =>
      split at h
      · cases h
      · next rest hrest =>
        simp only [List.zipIdx_cons, List.mem_cons, Prod.mk.injEq]
        cases h
        constructor
        · intro hmem
          by_cases hc : c.isContradictory = true
          · rw [if_pos hc] at hmem
            obtain ⟨c', i, tests', hc', hrest'⟩ := (ih hrest).mp hmem
            exact ⟨c', i, tests', .inr hc', hrest'⟩
          · rw [if_neg hc, List.mem_cons] at hmem
            rcases hmem with hop | hmem
            · exact ⟨c, number, tests, .inl ⟨rfl, rfl⟩, by simpa using hc, htests, hop⟩
            · obtain ⟨c', i, tests', hc', hrest'⟩ := (ih hrest).mp hmem
              exact ⟨c', i, tests', .inr hc', hrest'⟩
        · rintro ⟨c', i, tests', ⟨rfl, rfl⟩ | hc', hcontr, htests', hop⟩
          · rw [htests] at htests'
            cases htests'
            rw [if_neg (by simp [hcontr]), hop]
            exact List.mem_cons_self
          · have hmem := (ih hrest).mpr ⟨c', i, tests', hc', hcontr, htests', hop⟩
            split
            · exact hmem
            · exact List.mem_cons_of_mem _ hmem

/-- Every clause has its conditions, also one that has no operator. -/
theorem Checking.exists_tests {k : Checking} {usedVars : List (String × VarId)} {number : Nat}
    {cs : List (Clause Symbol)} {ops : List Operator} (h : k.operators usedVars number cs = .ok ops)
    {c : Clause Symbol} (hc : c ∈ cs) :
    ∃ tests, traverse (literalTest usedVars k.property) c = .ok tests := by
  induction cs generalizing number ops with
  | nil => cases hc
  | cons c' cs ih =>
    unfold Checking.operators at h
    split at h
    · cases h
    · next tests htests =>
      split at h
      · cases h
      · next rest hrest =>
        rcases List.mem_cons.mp hc with rfl | hc
        · exact ⟨tests, htests⟩
        · exact ih hrest hc

theorem exists_clauses_of_checkFormula {usedVars : List (String × VarId)} {k : Checking}
    {f : Formula Symbol} {ops : List Operator} (h : checkFormula usedVars k f = .ok ops) :
    ∃ cs, f.toDnf.clauses = .ok cs ∧ k.operators usedVars 0 cs = .ok ops := by
  unfold checkFormula propertyClauses at h
  cases hcs : f.toDnf.clauses with
  | error e => rw [hcs] at h; cases h
  | ok cs => rw [hcs] at h; exact ⟨cs, rfl, h⟩

/-- The operators of a property are those that confirm its formula, and perhaps some that confirm
the negation. -/
theorem exists_of_checkProperty {usedVars : List (String × VarId)} {phase var : VarId}
    {negative : Bool} {p : Property} {ops : List Operator}
    (h : checkProperty usedVars phase negative (p, var) = .ok ops) :
    ∃ confirming, checkFormula usedVars ⟨p, "check_", phase, var, 1⟩ p.formula = .ok confirming ∧
      (∀ op ∈ confirming, op ∈ ops) ∧
      ∀ op ∈ ops, op ∈ confirming ∨
        ∃ refuting,
          checkFormula usedVars ⟨p, "neg_check_", phase, var, 0⟩ p.formula.negate = .ok refuting ∧
            op ∈ refuting := by
  unfold checkProperty at h
  split at h
  · cases h
  · next confirming hconfirming =>
    refine ⟨confirming, hconfirming, ?_⟩
    split at h
    · split at h
      · cases h
      · next refuting hrefuting =>
        cases h
        refine ⟨fun op hop => List.mem_append_left _ hop, fun op hop => ?_⟩
        rcases List.mem_append.mp hop with hop | hop
        · exact .inl hop
        · exact .inr ⟨refuting, hrefuting, hop⟩
    · cases h
      exact ⟨fun _ hop => hop, fun _ hop => .inl hop⟩

/-- Every checking operator is one of a clause. -/
theorem exists_eq_operator_of_checkFormula {usedVars : List (String × VarId)} {k : Checking}
    {f : Formula Symbol} {ops : List Operator} (h : checkFormula usedVars k f = .ok ops)
    {op : Operator} (hop : op ∈ ops) : ∃ number tests, op = k.operator number tests := by
  obtain ⟨cs, -, hops⟩ := exists_clauses_of_checkFormula h
  obtain ⟨cl, number, tests, -, -, -, hop⟩ := (Checking.mem_operators hops).mp hop
  exact ⟨number, tests, hop⟩

namespace Phases

section

variable {t : Task} {set : PropertySet} {c : Situation}

/-- The condition of a literal is true exactly if the literal is. -/
theorem holds_literalTest (hlen : c.state.length = t.vars.length) {p : Property}
    {l : Literal Symbol} {f : Fact} (h : literalTest (usedVars t set) p l = .ok f) :
    f.holds (c.encode t set) = l.holds (t.usesNamed set.actionSets c.path) := by
  unfold literalTest at h
  split at h
  · next var hvar =>
    obtain ⟨j, s, rfl, hget, hfind⟩ := lookup_usedVarsFrom_eq_some hvar
    have hj : j < set.actionSets.sets.length := (List.getElem?_eq_some_iff.mp hget).1
    have hindex : t.vars.length + (1 + set.properties.length) + j =
        t.vars.length + (Role.used j).index set := by
      rw [Role.index]
      omega
    cases h
    rw [hindex, Bool.eq_iff_iff, Situation.holds_encode_iff hlen (roles_used hj), Situation.value,
      hget, Literal.holds, Task.usesNamed, show set.actionSets.get? l.atom.name = some s from hfind,
      Option.any_some]
    cases t.uses c.path s <;> cases l.negated <;> simp
  · cases h

/-- The conditions of a clause are true exactly if the clause is. -/
theorem holds_tests (hlen : c.state.length = t.vars.length) {p : Property} {cl : Clause Symbol}
    {tests : List Fact} (h : traverse (literalTest (usedVars t set) p) cl = .ok tests) :
    (∀ f ∈ tests, f.holds (c.encode t set) = true) ↔
      cl.holds (t.usesNamed set.actionSets c.path) = true := by
  rw [Clause.holds, List.all_eq_true]
  constructor
  · intro hall l hl
    obtain ⟨i, hi, rfl⟩ := List.mem_iff_getElem.mp hl
    obtain ⟨f, hf, hok⟩ := getElem?_traverse h (List.getElem?_eq_getElem hi)
    rw [← holds_literalTest hlen hok]
    exact hall f (List.mem_of_getElem? hf)
  · intro hall f hf
    obtain ⟨l, hl, hok⟩ := mem_of_mem_traverse h hf
    rw [holds_literalTest hlen hok]
    exact hall l hl

/-- The value of the variable of a property, after a check. -/
def Situation.check (c : Situation) (j value : Nat) : Situation :=
  { c with satisfied := fun i => if i = j then value else c.satisfied i }

/-- What a check of the property of number `j` is about. -/
structure Checks (t : Task) (set : PropertySet) (j : Nat) (k : Checking) : Prop where
  lt : j < set.properties.length
  phase : k.phase = t.vars.length
  satisfaction : k.satisfaction = t.vars.length + (1 + j)

/-- A checking operator is applicable in the second phase, where its conditions are true. -/
theorem isApplicable_checking (hlen : c.state.length = t.vars.length) {j : Nat} {k : Checking}
    (hk : Checks t set j k) (number : Nat) (tests : List Fact) :
    (k.operator number tests).isApplicable (c.encode t set) = true ↔
      (∀ f ∈ tests, f.holds (c.encode t set) = true) ∧ c.phase = 1 := by
  rw [← Situation.holds_phase_iff hlen, ← hk.phase, Operator.isApplicable, List.all_eq_true]
  have hpre : (k.operator number tests).preconditions = tests ++ [⟨k.phase, 1⟩] := by
    simp [Operator.preconditions, Checking.operator, Effect.precondition?]
  rw [hpre, List.forall_mem_append, List.forall_mem_singleton]

theorem apply_checking (hlen : c.state.length = t.vars.length) {j : Nat} {k : Checking}
    (hk : Checks t set j k) (number : Nat) (tests : List Fact) :
    (k.operator number tests).apply (c.encode t set) = (c.check j k.value).encode t set := by
  rw [Operator.eq_extend (k.operator number tests)]
  refine Situation.apply_extend_encode hlen (Operator.within_ofEffects_nil _ _ _) _ ?_ rfl ?_
  · rintro e (_ | ⟨_, ⟨⟩⟩)
    rw [Effect.assign_var, hk.satisfaction]
    exact Nat.le_add_right _ _
  · intro role hrole
    cases role with
    | phase =>
      simp [Checking.operator, hk.satisfaction, Role.index, Situation.value, Situation.check]
    | satisfied i =>
      by_cases hi : i = j
      · simp [Checking.operator, hk.satisfaction, Role.index, Situation.value, Situation.check, hi]
      · simp [Checking.operator, hk.satisfaction, Role.index, Situation.value, Situation.check, hi,
          Ne.symm hi]
    | used i =>
      have hj := hk.lt
      have hne : 1 + j ≠ 1 + set.properties.length + i := by omega
      simp [Checking.operator, hk.satisfaction, Role.index, Situation.value, Situation.check, hne]

/-- A checking operator for a formula is applicable only if the formula is true. -/
theorem eval_of_isApplicable_checking (hlen : c.state.length = t.vars.length) {j : Nat}
    {k : Checking} (hk : Checks t set j k) {f : Formula Symbol} {ops : List Operator}
    (h : checkFormula (usedVars t set) k f = .ok ops) {op : Operator} (hop : op ∈ ops)
    (happ : op.isApplicable (c.encode t set) = true) :
    c.phase = 1 ∧ f.eval (t.usesNamed set.actionSets c.path) = .ok true := by
  obtain ⟨cs, hcs, hops⟩ := exists_clauses_of_checkFormula h
  obtain ⟨cl, number, tests, hcl, -, htests, rfl⟩ := (Checking.mem_operators hops).mp hop
  obtain ⟨hholds, hphase⟩ := (isApplicable_checking hlen hk number tests).mp happ
  refine ⟨hphase, ?_⟩
  rw [Formula.eval_of_clauses_toDnf (t.respectsNames_usesNamed _ _) hcs]
  exact congrArg _ (List.any_eq_true.mpr
    ⟨cl, List.fst_mem_of_mem_zipIdx hcl, (holds_tests hlen htests).mp hholds⟩)

/-- In the second phase, some checking operator for a true formula is applicable. -/
theorem exists_isApplicable_checking (hlen : c.state.length = t.vars.length) {j : Nat}
    {k : Checking} (hk : Checks t set j k) {f : Formula Symbol} {ops : List Operator}
    (h : checkFormula (usedVars t set) k f = .ok ops) (hphase : c.phase = 1)
    (hf : f.eval (t.usesNamed set.actionSets c.path) = .ok true) :
    ∃ op ∈ ops, op.isApplicable (c.encode t set) = true := by
  obtain ⟨cs, hcs, hops⟩ := exists_clauses_of_checkFormula h
  have hnames := t.respectsNames_usesNamed set.actionSets c.path
  rw [Formula.eval_of_clauses_toDnf hnames hcs] at hf
  obtain ⟨cl, hcl, hholds⟩ := List.any_eq_true.mp (Except.ok.inj hf)
  obtain ⟨number, hnumber⟩ := List.mem_iff_getElem?.mp hcl
  have hcontr : cl.isContradictory = false := by
    rw [← Bool.not_eq_true]
    intro hcontr
    rw [Clause.holds_eq_false_of_isContradictory hnames hcontr] at hholds
    cases hholds
  obtain ⟨tests, htests⟩ := Checking.exists_tests hops hcl
  exact ⟨k.operator number tests,
    (Checking.mem_operators hops).mpr
      ⟨cl, number, tests, List.mk_mem_zipIdx_iff_getElem?.mpr hnumber, hcontr, htests, rfl⟩,
    (isApplicable_checking hlen hk number tests).mpr
      ⟨(holds_tests hlen htests).mpr hholds, hphase⟩⟩

end

end Phases

end PlanConstraints

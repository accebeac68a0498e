import PlanConstraints.Proofs.Compile.PhasedPlans

set_option autoImplicit false

/-!
# What the variables of a task with phases say

In every state that a task with phases can reach, the variable of a set says whether an operator of
the set was executed, and the variable of a property is set only in the second phase and only if the
formula of the property is true of these variables.  In the second phase some operator that confirms
a property is applicable exactly if the formula is true, and some operator that refutes it exactly
if the formula is false.
-/

namespace PlanConstraints

/-- The atom names a set whose variable says in the state that the set was used. -/
def Compiled.usedIn (compiled : Compiled) (s : Assignment) (a : Symbol) : Bool :=
  (compiled.usedVars.lookup a.name).any fun var => (⟨var, 1⟩ : Fact).holds s

/-- The operator was added to the task in order to check the property with the given variable: it
sets this variable, and its name is made of the label, the name of the property and a number. -/
structure Compiled.ChecksProperty (compiled : Compiled) (t : Task) (label : String) (p : Property)
    (var : VarId) (op : Operator) : Prop where
  added : op ∈ compiled.task.operators.drop t.operators.length
  name : ∃ number : Nat, op.name = label ++ p.name.name ++ "_" ++ toString number
  assigns : op.assigns var = true

/-! ## Variables of sets -/

theorem getElem?_usedVarsFrom (var : Nat) (sets : List ActionSet) (j : Nat) :
    (usedVarsFrom var sets)[j]? = sets[j]?.map fun a => (a.name, var + j) := by
  induction sets generalizing var j with
  | nil => rfl
  | cons a sets ih =>
    cases j with
    | zero => rfl
    | succ j =>
      rw [usedVarsFrom, List.getElem?_cons_succ, List.getElem?_cons_succ, ih,
        show var + 1 + j = var + (j + 1) by omega]

namespace Phases

variable {options : CompileOptions} {t : Task} {set : PropertySet} {compiled : Compiled}
  {checks : List (List Operator)} {c : Situation}

/-- The variable of a set says whether the set was used. -/
theorem holds_used_iff (hlen : c.state.length = t.vars.length) {j : Nat} {a : ActionSet}
    (ha : set.actionSets.sets[j]? = some a) :
    (⟨t.vars.length + (1 + set.properties.length) + j, 1⟩ : Fact).holds (c.encode t set) = true ↔
      t.uses c.path a = true := by
  have hj : j < set.actionSets.sets.length := (List.getElem?_eq_some_iff.mp ha).1
  have hindex : t.vars.length + (1 + set.properties.length) + j =
      t.vars.length + (Role.used j).index set := by
    rw [Role.index]
    omega
  rw [hindex, Situation.holds_encode_iff hlen (roles_used hj), Situation.value, ha,
    Option.any_some]
  cases t.uses c.path a <;> simp

/-- Read from the variables, the sets that were used are those of which an operator was executed. -/
theorem usedIn_encode (hr : Result options t set compiled checks)
    (hlen : c.state.length = t.vars.length) :
    compiled.usedIn (c.encode t set) = t.usesNamed set.actionSets c.path := by
  funext a
  rw [Compiled.usedIn, hr.usedVars_eq, usedVars, Task.usesNamed]
  cases hvar : (usedVarsFrom _ set.actionSets.sets).lookup a.name with
  | none =>
    have hnone : set.actionSets.get? a.name = none := lookup_usedVarsFrom_eq_none hvar
    rw [hnone]
    rfl
  | some var =>
    obtain ⟨j, s, rfl, hs, hfind⟩ := lookup_usedVarsFrom_eq_some hvar
    have hsome : set.actionSets.get? a.name = some s := hfind
    rw [hsome, Option.any_some, Option.any_some, Bool.eq_iff_iff]
    exact holds_used_iff hlen hs

/-! ## The operators of a property -/

/-- What the operators for a property, or for its negation, have in common. -/
def checking (t : Task) (j : Nat) (p : Property) (negated : Bool) : Checking :=
  if negated then ⟨p, "neg_check_", t.vars.length, t.vars.length + (1 + j), 0⟩
  else ⟨p, "check_", t.vars.length, t.vars.length + (1 + j), 1⟩

/-- The formula that these operators are for. -/
def checkedFormula (p : Property) (negated : Bool) : Formula Symbol :=
  if negated then p.formula.negate else p.formula

theorem checks_checking {j : Nat} {p : Property} (hp : set.properties[j]? = some p)
    (negated : Bool) : Checks t set j (checking t j p negated) := by
  have hj : j < set.properties.length := (List.getElem?_eq_some_iff.mp hp).1
  cases negated <;> exact ⟨hj, rfl, rfl⟩

/-- The operators for a property are added, and those for its negation if they are asked for. -/
theorem exists_checkFormula (hr : Result options t set compiled checks) {j : Nat} {p : Property}
    (hp : set.properties[j]? = some p) {negated : Bool}
    (hnegative : negated = true → options.negativeActions = true) :
    ∃ ops, checkFormula (usedVars t set) (checking t j p negated) (checkedFormula p negated) =
        .ok ops ∧ ∀ op ∈ ops, op ∈ checks.flatten := by
  obtain ⟨all, hall, hok⟩ := exists_checks hr hp
  have hflatten : ∀ op ∈ all, op ∈ checks.flatten := fun op hop =>
    List.mem_flatten.mpr ⟨all, List.mem_of_getElem? hall, hop⟩
  cases negated with
  | false =>
    obtain ⟨confirming, hconfirming, hsub, -⟩ := exists_of_checkProperty hok
    exact ⟨confirming, hconfirming, fun op hop => hflatten op (hsub op hop)⟩
  | true =>
    rw [hnegative rfl] at hok
    unfold checkProperty at hok
    split at hok
    · cases hok
    · rw [if_pos rfl] at hok
      split at hok
      · cases hok
      · next refuting hrefuting =>
        cases hok
        exact ⟨refuting, hrefuting, fun op hop => hflatten op (List.mem_append_right _ hop)⟩

theorem Checking.assigns_operator (k : Checking) (number : Nat) (tests : List Fact)
    (var : VarId) : (k.operator number tests).assigns var = true ↔ k.satisfaction = var := by
  simp [Operator.assigns, Checking.operator]

/-- The operators that the compilation adds are the change of phase and the checks. -/
theorem drop_operators (hr : Result options t set compiled checks) :
    compiled.task.operators.drop t.operators.length = changeOperator t :: checks.flatten := by
  rw [hr.operators, ← List.length_map (ownOperator t set), List.drop_left]

/-- An operator of a formula of a property is found by its name and the variable that it sets. -/
theorem checksProperty_of_mem (hr : Result options t set compiled checks) {k : Checking}
    {f : Formula Symbol} {ops : List Operator}
    (h : checkFormula (usedVars t set) k f = .ok ops) (hchecks : ∀ op ∈ ops, op ∈ checks.flatten)
    {op : Operator} (hop : op ∈ ops) :
    compiled.ChecksProperty t k.label k.property k.satisfaction op := by
  obtain ⟨number, tests, rfl⟩ := exists_eq_operator_of_checkFormula h hop
  refine ⟨?_, ⟨number, rfl⟩, (Checking.assigns_operator k number tests _).mpr rfl⟩
  rw [drop_operators hr]
  exact List.mem_cons_of_mem _ (hchecks _ hop)

/-- The operators that are found by the variable of a property are those for the property and its
negation. -/
theorem exists_mem_of_checksProperty (hr : Result options t set compiled checks) {j : Nat}
    {p : Property} (hp : set.properties[j]? = some p) {label : String} {op : Operator}
    (h : compiled.ChecksProperty t label p (t.vars.length + (1 + j)) op) :
    ∃ negated ops, checkFormula (usedVars t set) (checking t j p negated)
      (checkedFormula p negated) = .ok ops ∧ op ∈ ops := by
  obtain ⟨hadded, -, hassigns⟩ := h
  rw [drop_operators hr] at hadded
  rcases List.mem_cons.mp hadded with rfl | hmem
  · -- The change of phase sets the variable of the phase only.
    simp [Operator.assigns, changeOperator, Operator.ofEffects] at hassigns
  · obtain ⟨ops, hops, hop⟩ := List.mem_flatten.mp hmem
    obtain ⟨i, p', hp', hok⟩ := exists_property_of_mem_checks hr hops
    obtain ⟨confirming, hconfirming, -, hall⟩ := exists_of_checkProperty hok
    have hsame : t.vars.length + (1 + i) = t.vars.length + (1 + j) → p' = p ∧ i = j := by
      intro heq
      have hij : i = j := by omega
      subst hij
      rw [hp] at hp'
      exact ⟨(Option.some.inj hp').symm, rfl⟩
    rcases hall op hop with hop | ⟨refuting, hrefuting, hop⟩
    · obtain ⟨number, tests, rfl⟩ := exists_eq_operator_of_checkFormula hconfirming hop
      obtain ⟨rfl, rfl⟩ := hsame ((Checking.assigns_operator _ _ _ _).mp hassigns)
      exact ⟨false, confirming, hconfirming, hop⟩
    · obtain ⟨number, tests, rfl⟩ := exists_eq_operator_of_checkFormula hrefuting hop
      obtain ⟨rfl, rfl⟩ := hsame ((Checking.assigns_operator _ _ _ _).mp hassigns)
      exact ⟨true, refuting, hrefuting, hop⟩

/-- The labels differ in their first character, so that what stands behind them does not matter. -/
theorem eq_of_label_append {j : Nat} {p : Property} {negated negated' : Bool} {a b : String}
    (h : (checking t j p negated).label ++ a = (checking t j p negated').label ++ b) :
    negated = negated' := by
  have hhead := congrArg (fun text => text.toList.head?) h
  cases negated <;> cases negated' <;> simp [checking] at hhead ⊢

/-- The operators that are found by their label are those of the formula that it stands for. -/
theorem mem_of_checksProperty (hr : Result options t set compiled checks) {j : Nat} {p : Property}
    (hp : set.properties[j]? = some p) {negated : Bool} {ops : List Operator}
    (hops : checkFormula (usedVars t set) (checking t j p negated) (checkedFormula p negated) =
      .ok ops) {op : Operator}
    (h : compiled.ChecksProperty t (checking t j p negated).label p (t.vars.length + (1 + j)) op) :
    op ∈ ops := by
  obtain ⟨n, hname⟩ := h.name
  obtain ⟨negated', ops', hops', hop⟩ := exists_mem_of_checksProperty hr hp h
  obtain ⟨number, tests, rfl⟩ := exists_eq_operator_of_checkFormula hops' hop
  simp only [Checking.operator, String.append_assoc] at hname
  have hsame := eq_of_label_append hname
  subst hsame
  rw [hops] at hops'
  cases hops'
  exact hop

/-- In the second phase, some operator for a property or its negation is applicable exactly if that
formula is true. -/
theorem exists_checksProperty_iff (hr : Result options t set compiled checks)
    (hlen : c.state.length = t.vars.length) (hphase : c.phase = 1) {j : Nat} {p : Property}
    (hp : set.properties[j]? = some p) (negated : Bool)
    (hnegative : negated = true → options.negativeActions = true) :
    (∃ op, compiled.ChecksProperty t (checking t j p negated).label p
        (t.vars.length + (1 + j)) op ∧ op.isApplicable (c.encode t set) = true) ↔
      (checkedFormula p negated).eval (t.usesNamed set.actionSets c.path) = .ok true := by
  obtain ⟨ops, hops, hchecks⟩ := exists_checkFormula hr hp hnegative
  have hk := checks_checking (t := t) hp negated
  constructor
  · rintro ⟨op, hop, happ⟩
    exact (eval_of_isApplicable_checking hlen hk hops (mem_of_checksProperty hr hp hops hop)
      happ).2
  · intro hf
    obtain ⟨op, hop, happ⟩ := exists_isApplicable_checking hlen hk hops hphase hf
    have hfound := checksProperty_of_mem hr hops hchecks hop
    rw [hk.satisfaction] at hfound
    refine ⟨op, ?_, happ⟩
    cases negated <;> exact hfound

theorem eval_negate_eq_true_iff (value : Symbol → Bool) (f : Formula Symbol) :
    f.negate.eval value = .ok true ↔ f.eval value = .ok false := by
  rw [Formula.eval_negate]
  cases f.eval value with
  | error e => simp [Except.map]
  | ok b => cases b <;> simp [Except.map]

end Phases

/-- What the operators and the variable of a property say in a state. -/
structure Compiled.TellsProperty (compiled : Compiled) (options : CompileOptions) (t : Task)
    (p : Property) (var : VarId) (s : Assignment) : Prop where
  confirm : s[t.nextVar]? = some 1 →
    ((∃ op, compiled.ChecksProperty t "check_" p var op ∧ op.isApplicable s = true) ↔
      p.formula.eval (compiled.usedIn s) = .ok true)
  refute : s[t.nextVar]? = some 1 → options.negativeActions = true →
    ((∃ op, compiled.ChecksProperty t "neg_check_" p var op ∧ op.isApplicable s = true) ↔
      p.formula.eval (compiled.usedIn s) = .ok false)
  satisfied : s[var]? = some 1 →
    s[t.nextVar]? = some 1 ∧ p.formula.eval (compiled.usedIn s) = .ok true

/-- What the variables of the new task say in every state that it reaches.  In the second phase,
confirming and refuting a property are complementary; a property that was found to hold does; and
the variable of a set says whether an operator of the set was executed.

Every run is covered, whether it ends in a goal or not, and only the consistency of the task is
asked.  The other direction of `Compiled.TellsProperty.satisfied` cannot hold, since nothing forces
a check to be executed. -/
theorem compileActionSets_evaluation {options : CompileOptions} {t : Task} {set : PropertySet}
    {compiled : Compiled} (hcheck : t.check = .ok ())
    (h : compileActionSets options t set = .ok compiled) {numbers : List Nat} {s : Assignment}
    (hrun : compiled.task.runAt? numbers = some s) :
    (∀ (j : Nat) (p : Property), set.properties[j]? = some p → ∃ var,
        compiled.propertyVars[j]? = some var ∧ compiled.TellsProperty options t p var s) ∧
      ∀ (j : Nat) (a : ActionSet), set.actionSets.sets[j]? = some a → ∃ var,
        compiled.usedVars[j]? = some (a.name, var) ∧
          (s[var]? = some 1 ↔ t.uses (t.originals numbers) a = true) := by
  have hc := t.check_eq_ok_iff.mp hcheck
  obtain ⟨checks, hr⟩ := Phases.exists_result h
  obtain ⟨c, rfl, hpath, hrun', hsat⟩ := Phases.exists_reached hc hr hrun
  have hlen := (Task.isState_of_runAt? hc hrun').length_eq
  have hphase : (c.encode t set)[t.nextVar]? = some 1 ↔ c.phase = 1 := by
    rw [← Phases.Situation.holds_phase_iff hlen, Fact.holds_iff]
    rfl
  constructor
  · intro j p hp
    have hj : j < set.properties.length := (List.getElem?_eq_some_iff.mp hp).1
    refine ⟨t.vars.length + (1 + j), ?_, ?_, ?_, ?_⟩
    · rw [hr.propertyVars, Phases.getElem?_satisfactionVars hp, Nat.add_assoc]
    · intro hsecond
      rw [Phases.usedIn_encode hr hlen]
      exact Phases.exists_checksProperty_iff hr hlen (hphase.mp hsecond) hp false
        Bool.noConfusion
    · intro hsecond hnegative
      rw [Phases.usedIn_encode hr hlen, ← Phases.eval_negate_eq_true_iff]
      exact Phases.exists_checksProperty_iff hr hlen (hphase.mp hsecond) hp true
        fun _ => hnegative
    · intro hfound
      have hone : c.satisfied j = 1 :=
        (Phases.Situation.holds_encode_iff hlen (Phases.roles_satisfied hj)).mp
          ((Fact.holds_iff _ _).mpr hfound)
      obtain ⟨hsecond, hformula⟩ := hsat j hone
      rw [Phases.usedIn_encode hr hlen]
      exact ⟨hphase.mpr hsecond, hformula p hp⟩
  · intro j a ha
    refine ⟨t.vars.length + (1 + set.properties.length) + j, ?_, ?_⟩
    · rw [hr.usedVars_eq, Phases.usedVars, getElem?_usedVarsFrom, ha]
      rfl
    · rw [← hpath, ← Phases.holds_used_iff hlen ha, Fact.holds_iff]

/-- On foot, the property that the way is by bus can be refuted and not confirmed. -/
theorem commute_evaluation : ∃ compiled s p,
    compileActionSets ⟨true, true, false, .exact, "soft_"⟩ commute commuteByBus = .ok compiled ∧
      compiled.task.runAt? [0, 2] = some s ∧ commuteByBus.properties[0]? = some p ∧
        (∃ op, compiled.ChecksProperty commute "neg_check_" p 2 op ∧ op.isApplicable s = true) ∧
          ¬ ∃ op, compiled.ChecksProperty commute "check_" p 2 op ∧ op.isApplicable s = true := by
  have hfacts : (compileActionSets ⟨true, true, false, .exact, "soft_"⟩ commute
      commuteByBus).toOption.map
        (fun c => (c.task.runAt? [0, 2], c.propertyVars, c.usedVars)) =
          some (some [1, 1, 0, 0], [2], [("rides", 3)]) := by decide +kernel
  obtain ⟨compiled, h, hfacts⟩ := Option.map_eq_some_iff.mp hfacts
  simp only [Prod.mk.injEq] at hfacts
  obtain ⟨hrun, hprops, hused⟩ := hfacts
  have h := eq_ok_of_toOption h
  obtain ⟨var, hvar, htells⟩ := (compileActionSets_evaluation (by decide) h hrun).1 0 _ rfl
  rw [hprops] at hvar
  cases hvar
  have hfalse : compiled.usedIn [1, 1, 0, 0] (.ofName "rides") = false := by
    rw [Compiled.usedIn, hused]
    decide
  have heval : Formula.eval (compiled.usedIn [1, 1, 0, 0]) (.atom (.ofName "rides")) =
      .ok false := congrArg Except.ok hfalse
  refine ⟨compiled, [1, 1, 0, 0], _, h, hrun, rfl, (htells.refute rfl rfl).mpr heval, ?_⟩
  intro hconfirm
  have htrue := (htells.confirm rfl).mp hconfirm
  rw [heval] at htrue
  cases htrue

end PlanConstraints

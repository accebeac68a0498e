import PlanConstraints.Proofs.Task.Extension
import PlanConstraints.Proofs.Text.Lines
import PlanConstraints.Proofs.Text.Numbers

set_option autoImplicit false

/-!
# Well-formed tasks

A task is well-formed if it is consistent and all its names and numbers have a written form: names
fill lines, and the numbers that no check bounds fit the fields of the file.  The steps by which
tasks are extended keep them well-formed: new variables with two or more values, goals, and
operators that speak of existing values.
-/

namespace PlanConstraints

open Text (InRange)

/-! ## Written forms -/

structure Variable.Legible (v : Variable) : Prop where
  name : IsLine v.name
  layer : InRange 32 v.layer
  values : ∀ value ∈ v.values, IsLine value

/-- The variable and the value of the fact fit their fields. -/
structure Fact.Legible (f : Fact) : Prop where
  var : f.var < 2 ^ 64
  value : f.value < 2 ^ 64

/-- The number of facts fits its field, and so do the facts. -/
structure LegibleFacts (fs : List Fact) : Prop where
  length : fs.length < 2 ^ 64
  facts : ∀ f ∈ fs, f.Legible

/-- The name fills a line, and the numbers that are no facts fit their fields. -/
structure Operator.Legible (op : Operator) : Prop where
  name : IsLine op.name
  cost : InRange 64 op.cost
  conditions : ∀ e ∈ op.effects, e.conditions.length < 2 ^ 63

/-- The numbers of the rule fit their fields. -/
structure Rule.Legible (r : Rule) : Prop where
  conditions : LegibleFacts r.conditions
  var : r.var < 2 ^ 63
  pre : ∀ value ∈ r.pre, value < 2 ^ 63
  post : r.post < 2 ^ 63

instance (v : Variable) : Decidable v.Legible :=
  decidable_of_iff (IsLine v.name ∧ InRange 32 v.layer ∧ ∀ value ∈ v.values, IsLine value)
    ⟨fun ⟨hname, hlayer, hvalues⟩ => ⟨hname, hlayer, hvalues⟩,
      fun h => ⟨h.name, h.layer, h.values⟩⟩

instance (f : Fact) : Decidable f.Legible :=
  decidable_of_iff (f.var < 2 ^ 64 ∧ f.value < 2 ^ 64)
    ⟨fun ⟨hvar, hvalue⟩ => ⟨hvar, hvalue⟩, fun h => ⟨h.var, h.value⟩⟩

instance (fs : List Fact) : Decidable (LegibleFacts fs) :=
  decidable_of_iff (fs.length < 2 ^ 64 ∧ ∀ f ∈ fs, f.Legible)
    ⟨fun ⟨hlength, hfacts⟩ => ⟨hlength, hfacts⟩, fun h => ⟨h.length, h.facts⟩⟩

instance (op : Operator) : Decidable op.Legible :=
  decidable_of_iff (IsLine op.name ∧ InRange 64 op.cost ∧
      ∀ e ∈ op.effects, e.conditions.length < 2 ^ 63)
    ⟨fun ⟨hname, hcost, hconditions⟩ => ⟨hname, hcost, hconditions⟩,
      fun h => ⟨h.name, h.cost, h.conditions⟩⟩

instance (r : Rule) : Decidable r.Legible :=
  decidable_of_iff (LegibleFacts r.conditions ∧ r.var < 2 ^ 63 ∧
      (∀ value ∈ r.pre, value < 2 ^ 63) ∧ r.post < 2 ^ 63)
    ⟨fun ⟨hconditions, hvar, hpre, hpost⟩ => ⟨hconditions, hvar, hpre, hpost⟩,
      fun h => ⟨h.conditions, h.var, h.pre, h.post⟩⟩

namespace Task

/-- Everything that the check does not bound has a written form. -/
structure Legible (t : Task) : Prop where
  vars : ∀ v ∈ t.vars, v.Legible
  mutexCount : t.mutexes.length < 2 ^ 64
  mutexes : ∀ group ∈ t.mutexes, LegibleFacts group
  operators : ∀ op ∈ t.operators, op.Legible
  ruleCount : t.rules.length < 2 ^ 64
  rules : ∀ r ∈ t.rules, r.Legible

structure WellFormed (t : Task) : Prop where
  consistent : t.Consistent
  legible : t.Legible

instance (t : Task) : Decidable t.Legible :=
  decidable_of_iff ((∀ v ∈ t.vars, v.Legible) ∧ t.mutexes.length < 2 ^ 64 ∧
      (∀ group ∈ t.mutexes, LegibleFacts group) ∧ (∀ op ∈ t.operators, op.Legible) ∧
        t.rules.length < 2 ^ 64 ∧ ∀ r ∈ t.rules, r.Legible)
    ⟨fun ⟨hvars, hcount, hmutexes, hops, hrules, hlegible⟩ =>
        ⟨hvars, hcount, hmutexes, hops, hrules, hlegible⟩,
      fun h => ⟨h.vars, h.mutexCount, h.mutexes, h.operators, h.ruleCount, h.rules⟩⟩

instance (t : Task) : Decidable t.WellFormed :=
  decidable_of_iff (t.check = .ok () ∧ t.Legible)
    ⟨fun ⟨hcheck, hlegible⟩ => ⟨t.check_eq_ok_iff.mp hcheck, hlegible⟩,
      fun h => ⟨t.check_eq_ok_iff.mpr h.consistent, h.legible⟩⟩

/-! ## Operators of a task -/

/-- An operator that the task may have. -/
structure Admits (t : Task) (op : Operator) : Prop where
  legible : op.Legible
  inDomain : ∀ f ∈ operatorFacts op, t.InDomain f

/-- An effect that operators of the task may have. -/
structure AdmitsEffect (t : Task) (e : Effect) : Prop where
  conditions : e.conditions.length < 2 ^ 63
  precondition : ∀ f ∈ e.precondition?, t.InDomain f
  inDomain : ∀ f ∈ effectFacts e, t.InDomain f

variable {t t' : Task}

theorem InDomain.mono (hvars : t.vars <+: t'.vars) {f : Fact} (h : t.InDomain f) :
    t'.InDomain f := by
  obtain ⟨v, hv, hlt⟩ := h
  obtain ⟨more, hmore⟩ := hvars
  refine ⟨v, ?_, hlt⟩
  rw [← hmore, List.getElem?_append_left (List.getElem?_eq_some_iff.mp hv).1, hv]

theorem Admits.mono (hvars : t.vars <+: t'.vars) {op : Operator} (h : t.Admits op) :
    t'.Admits op :=
  ⟨h.legible, fun f hf => (h.inDomain f hf).mono hvars⟩

theorem AdmitsEffect.mono (hvars : t.vars <+: t'.vars) {e : Effect} (h : t.AdmitsEffect e) :
    t'.AdmitsEffect e :=
  ⟨h.conditions, fun f hf => (h.precondition f hf).mono hvars,
    fun f hf => (h.inDomain f hf).mono hvars⟩

/-- The effects of an operator that the task may have. -/
theorem Admits.effect {op : Operator} (h : t.Admits op) {e : Effect} (he : e ∈ op.effects) :
    t.AdmitsEffect e where
  conditions := h.legible.conditions e he
  precondition f hf := by
    have hmem : f ∈ op.preconditions :=
      List.mem_append_right _ (List.mem_filterMap.mpr ⟨e, he, hf⟩)
    exact h.inDomain f (Operator.mem_operatorFacts.mpr (.inl hmem))
  inDomain f hf := by
    rw [effectFacts, List.mem_cons] at hf
    exact h.inDomain f (Operator.mem_operatorFacts.mpr (.inr ⟨e, he, hf⟩))

/-- Further conditions and effects of what exists. -/
theorem Admits.extend {op : Operator} (h : t.Admits op) {fs : List Fact} {es : List Effect}
    (hfs : ∀ f ∈ fs, t.InDomain f) (hes : ∀ e ∈ es, t.AdmitsEffect e) :
    t.Admits (op.extend fs es) where
  legible := by
    refine ⟨h.legible.name, h.legible.cost, fun e he => ?_⟩
    exact (List.mem_append.mp he).elim (h.legible.conditions e) fun he => (hes e he).conditions
  inDomain f hf := by
    rcases Operator.mem_operatorFacts.mp hf with hpre | ⟨e, he, hf⟩
    · rcases Operator.mem_preconditions_extend.mp hpre with hop | hfs' | ⟨e, he, hf⟩
      · exact h.inDomain f (Operator.mem_operatorFacts.mpr (.inl hop))
      · exact hfs f hfs'
      · exact (hes e he).precondition f hf
    · have hmem : f ∈ effectFacts e := List.mem_cons.mpr hf
      rcases List.mem_append.mp he with hop | he
      · exact (h.effect hop).inDomain f hmem
      · exact (hes e he).inDomain f hmem

/-- A new operator without cost. -/
theorem admits_new {name : String} (hname : IsLine name) {fs : List Fact} {es : List Effect}
    (hfs : ∀ f ∈ fs, t.InDomain f) (hes : ∀ e ∈ es, t.AdmitsEffect e) :
    t.Admits ⟨name, fs, es, 0⟩ := by
  have hnil : t.Admits (.ofEffects name [] 0) :=
    ⟨⟨hname, (by decide : InRange 64 0), List.forall_mem_nil _⟩, fun f hf => by
      simp [Operator.mem_operatorFacts, Operator.ofEffects, Operator.preconditions] at hf⟩
  exact hnil.extend hfs hes

theorem admitsEffect_assign {var post : Nat} {pre : Option Nat}
    (hpre : ∀ value ∈ pre, t.InDomain ⟨var, value⟩) (hpost : t.InDomain ⟨var, post⟩) :
    t.AdmitsEffect (.assign var pre post) where
  conditions := by simp [Effect.assign]
  precondition f hf := by
    obtain ⟨value, hvalue, rfl⟩ := Option.map_eq_some_iff.mp hf
    exact hpre value hvalue
  inDomain f hf := by
    simp only [effectFacts, Effect.assign, Effect.result, List.mem_singleton] at hf
    exact hf ▸ hpost

/-! ## Extending a task -/

namespace WellFormed

theorem admits (h : t.WellFormed) {op : Operator} (hop : op ∈ t.operators) : t.Admits op :=
  ⟨h.legible.operators op hop, h.consistent.operator op hop⟩

/-- Other operators of which the task may have each. -/
theorem withOperators (h : t.WellFormed) {ops : List Operator} (hops : ∀ op ∈ ops, t.Admits op) :
    WellFormed { t with operators := ops } where
  consistent := ⟨h.consistent.length_init, h.consistent.two_le, h.consistent.init,
    h.consistent.goal, fun op hop => (hops op hop).inDomain⟩
  legible := { h.legible with operators := fun op hop => (hops op hop).legible }

theorem mapOperators (h : t.WellFormed) {change : Operator → Operator}
    (hchange : ∀ op, t.Admits op → t.Admits (change op)) : (t.mapOperators change).WellFormed := by
  refine h.withOperators fun op hop => ?_
  obtain ⟨old, hold, rfl⟩ := List.mem_map.mp hop
  exact hchange old (h.admits hold)

theorem addOperator (h : t.WellFormed) {op : Operator} (hop : t.Admits op) :
    (t.addOperator op).WellFormed := by
  refine h.withOperators fun op' hop' => ?_
  rcases List.mem_append.mp hop' with hmem | hmem
  · exact h.admits hmem
  · rw [List.mem_singleton.mp hmem]
    exact hop

theorem addGoal (h : t.WellFormed) {f : Fact} (hf : t.InDomain f) : (t.addGoal f).WellFormed where
  consistent := by
    refine ⟨h.consistent.length_init, h.consistent.two_le, h.consistent.init, fun g hg => ?_,
      h.consistent.operator⟩
    rcases List.mem_append.mp hg with hg | hg
    · exact h.consistent.goal g hg
    · rw [List.mem_singleton.mp hg]
      exact hf
  legible := { h.legible with }

end WellFormed

/-- The values of a new variable exist. -/
theorem inDomain_addStateVariable (t : Task) {values : List String} (init : Nat) {value : Nat}
    (hvalue : value < values.length) :
    (t.addStateVariable values init).InDomain ⟨t.nextVar, value⟩ := by
  refine ⟨⟨"var" ++ toString t.nextVar, -1, values⟩, ?_, hvalue⟩
  rw [vars_addStateVariable, nextVar, List.getElem?_concat_length]

theorem vars_prefix_addStateVariable (t : Task) (values : List String) (init : Nat) :
    t.vars <+: (t.addStateVariable values init).vars :=
  List.prefix_append _ _

/-- Variables have names of which each fills a line. -/
theorem isLine_variableName (n : Nat) : IsLine ("var" ++ toString n) :=
  IsLine.append_append (by decide) (Text.isWord_natural n).isLine

/-- A new variable has at least two values, whose names fill lines. -/
theorem WellFormed.addStateVariable (h : t.WellFormed) {values : List String} {init : Nat}
    (hsize : 2 ≤ values.length) (hvalues : ∀ value ∈ values, IsLine value)
    (hinit : init < values.length) : (t.addStateVariable values init).WellFormed where
  consistent := by
    have hgrows := t.vars_prefix_addStateVariable values init
    refine ⟨?_, ?_, fun var value hvalue => ?_, fun f hf => (h.consistent.goal f hf).mono hgrows,
      fun op hop f hf => (h.consistent.operator op hop f hf).mono hgrows⟩
    · rw [init_addStateVariable, vars_addStateVariable, List.length_append, List.length_append,
        h.consistent.length_init]
      rfl
    · rw [vars_addStateVariable, List.forall_mem_append, List.forall_mem_singleton]
      exact ⟨h.consistent.two_le, hsize⟩
    · rw [init_addStateVariable, List.getElem?_append] at hvalue
      split at hvalue
      · exact (h.consistent.init var value hvalue).mono hgrows
      · next hge =>
        rw [List.getElem?_singleton] at hvalue
        split at hvalue
        · next hzero =>
          cases hvalue
          have hvar : var = t.nextVar := by
            rw [h.consistent.length_init] at hge hzero
            rw [nextVar]
            lia
          rw [hvar]
          exact t.inDomain_addStateVariable init hinit
        · cases hvalue
  legible := by
    refine { h.legible with vars := ?_ }
    rw [vars_addStateVariable, List.forall_mem_append, List.forall_mem_singleton]
    exact ⟨h.legible.vars, isLine_variableName _, (by decide : InRange 32 (-1)), hvalues⟩

/-! ## Growing tasks -/

/-- A well-formed task with further variables. -/
structure GrowsTo (t t' : Task) : Prop where
  vars : t.vars <+: t'.vars
  wellFormed : t'.WellFormed

theorem WellFormed.growsTo (h : t.WellFormed) : t.GrowsTo t := ⟨List.prefix_refl _, h⟩

theorem GrowsTo.trans {t'' : Task} (h : t.GrowsTo t') (h' : t'.GrowsTo t'') : t.GrowsTo t'' :=
  ⟨h.vars.trans h'.vars, h'.wellFormed⟩

/-- The variable exists, and `0` and `1` are among its values. -/
def IsSwitch (t : Task) (var : VarId) : Prop := ∀ value < 2, t.InDomain ⟨var, value⟩

theorem IsSwitch.mono (hvars : t.vars <+: t'.vars) {var : VarId} (h : t.IsSwitch var) :
    t'.IsSwitch var := fun value hvalue => (h value hvalue).mono hvars

theorem IsSwitch.ite {var : VarId} (h : t.IsSwitch var) (p : Prop) [Decidable p] (a b : Nat)
    (ha : a < 2) (hb : b < 2) : t.InDomain ⟨var, if p then a else b⟩ := by
  split
  · exact h a ha
  · exact h b hb

/-- A table of such variables gives one for each of its keys. -/
theorem IsSwitch.of_lookup {κ : Type} [BEq κ] [LawfulBEq κ] {table : List (κ × VarId)}
    (h : ∀ p ∈ table, t.IsSwitch p.2) {key : κ} {var : VarId}
    (hvar : table.lookup key = some var) : t.IsSwitch var :=
  h (key, var) (mem_of_lookup_eq_some hvar)

/-- A new variable is such a one. -/
theorem isSwitch_addStateVariable (t : Task) {values : List String} (init : Nat)
    (hsize : 2 ≤ values.length) : (t.addStateVariable values init).IsSwitch t.nextVar :=
  fun _ hvalue => t.inDomain_addStateVariable init (Nat.lt_of_lt_of_le hvalue hsize)

/-- A new variable with two values. -/
theorem WellFormed.addSwitch (h : t.WellFormed) {first second : String} {init : Nat}
    (hfirst : IsLine first) (hsecond : IsLine second) (hinit : init < 2) :
    (t.addStateVariable [first, second] init).WellFormed :=
  h.addStateVariable (Nat.le_refl 2)
    (List.forall_mem_cons.mpr ⟨hfirst, List.forall_mem_singleton.mpr hsecond⟩) hinit

/-- A new variable with two values, the second of which becomes a goal if goals are added. -/
theorem WellFormed.addGoalSwitch (h : t.WellFormed) {first second : String} {init : Nat}
    (hfirst : IsLine first) (hsecond : IsLine second) (hinit : init < 2) (addGoals : Bool) :
    let added := t.addStateVariable [first, second] init
    let goal := if addGoals then added.addGoal ⟨t.nextVar, 1⟩ else added
    t.GrowsTo goal ∧ goal.IsSwitch t.nextVar := by
  have hgrows := t.vars_prefix_addStateVariable [first, second] init
  have hadded := h.addSwitch hfirst hsecond hinit
  have hswitch : (t.addStateVariable [first, second] init).IsSwitch t.nextVar :=
    t.isSwitch_addStateVariable init (Nat.le_refl 2)
  cases addGoals with
  | false => exact ⟨⟨hgrows, hadded⟩, hswitch⟩
  | true => exact ⟨⟨hgrows, hadded.addGoal (hswitch 1 (by decide))⟩, hswitch⟩

end Task

end PlanConstraints

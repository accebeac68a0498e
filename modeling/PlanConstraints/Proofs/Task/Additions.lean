import PlanConstraints.Proofs.Task.Extension

set_option autoImplicit false

/-!
# Additions to a task

A compilation adds to a task and takes nothing away: variables and their initial values, goals and
operators stand behind those of the task, the values of its variables may get other names, and its
operators get conditions and effects on new variables only (`Task.AppendsTo`).  Every step by which
tasks are extended adds in this way, with respect to the task at the start of all steps.

An operator is in standard form if it has at most one condition on a variable, and none on one that
it assigns (`Operator.IsStandard`).
-/

namespace PlanConstraints

/-- The variable with other names for its values. -/
def Variable.renameValues (rename : String → String) (v : Variable) : Variable :=
  { v with values := v.values.map rename }

@[simp] theorem Variable.renameValues_id : Variable.renameValues id = id := by
  funext v
  simp [renameValues]

namespace Operator

/-- The operator with further conditions and effects, all of them on variables of a kind. -/
def ExtendsTo (kind : VarId → Prop) (op op' : Operator) : Prop :=
  ∃ fs es, op' = op.extend fs es ∧ (∀ f ∈ fs, kind f.var) ∧ ∀ e ∈ es, kind e.var

variable {kind kind' : VarId → Prop} {op op' op'' : Operator}

theorem ExtendsTo.refl (kind : VarId → Prop) (op : Operator) : op.ExtendsTo kind op :=
  ⟨[], [], op.extend_nil.symm, List.forall_mem_nil _, List.forall_mem_nil _⟩

theorem ExtendsTo.trans (h : op.ExtendsTo kind op') (h' : op'.ExtendsTo kind op'') :
    op.ExtendsTo kind op'' := by
  obtain ⟨fs, es, rfl, hfs, hes⟩ := h
  obtain ⟨gs, ds, rfl, hgs, hds⟩ := h'
  exact ⟨fs ++ gs, es ++ ds, extend_extend op fs gs es ds, List.forall_mem_append.mpr ⟨hfs, hgs⟩,
    List.forall_mem_append.mpr ⟨hes, hds⟩⟩

theorem ExtendsTo.imp (h : op.ExtendsTo kind op') (hkind : ∀ v, kind v → kind' v) :
    op.ExtendsTo kind' op' := by
  obtain ⟨fs, es, rfl, hfs, hes⟩ := h
  exact ⟨fs, es, rfl, fun f hf => hkind _ (hfs f hf), fun e he => hkind _ (hes e he)⟩

/-- The effects of the extended operator are old ones, or on variables of the kind. -/
theorem ExtendsTo.effects (h : op.ExtendsTo kind op') (hop : ∀ e ∈ op.effects, kind e.var) :
    ∀ e ∈ op'.effects, kind e.var := by
  obtain ⟨fs, es, rfl, -, hes⟩ := h
  exact List.forall_mem_append.mpr ⟨hop, hes⟩

theorem extendsTo_addPrevail (op : Operator) {f : Fact} (hf : kind f.var) :
    op.ExtendsTo kind (op.addPrevail f) :=
  ⟨[f], [], op.addPrevail_eq_extend f, List.forall_mem_singleton.mpr hf, List.forall_mem_nil _⟩

theorem extendsTo_addEffects (op : Operator) {es : List Effect} (hes : ∀ e ∈ es, kind e.var) :
    op.ExtendsTo kind (op.extend [] es) :=
  ⟨[], es, rfl, List.forall_mem_nil _, hes⟩

/-! ## Standard form -/

/-- At most one condition on a variable, and none on a variable with an effect. -/
def IsStandard (op : Operator) : Prop :=
  (op.prevail.map Fact.var).Nodup ∧ ∀ f ∈ op.prevail, op.assigns f.var = false

instance (op : Operator) : Decidable op.IsStandard :=
  inferInstanceAs (Decidable ((op.prevail.map Fact.var).Nodup ∧
    ∀ f ∈ op.prevail, op.assigns f.var = false))

theorem assigns_eq_false_iff {var : VarId} :
    op.assigns var = false ↔ ∀ e ∈ op.effects, e.var ≠ var := by
  simp [assigns]

/-- Conditions and effects on new variables, apart from each other, do not harm. -/
theorem IsStandard.extend (h : op.IsStandard) {n : Nat} (hw : op.Within n) {fs : List Fact}
    {es : List Effect} (hfs : ∀ f ∈ fs, n ≤ f.var) (hes : ∀ e ∈ es, n ≤ e.var)
    (hnodup : (fs.map Fact.var).Nodup) (hapart : ∀ f ∈ fs, ∀ e ∈ es, e.var ≠ f.var) :
    (op.extend fs es).IsStandard := by
  have hold : ∀ f ∈ op.prevail, f.var < n := fun f hf =>
    hw.precondition (List.mem_append_left _ hf)
  constructor
  · rw [Operator.extend, List.map_append, List.nodup_append]
    refine ⟨h.1, hnodup, List.forall_mem_map.mpr fun f hf => List.forall_mem_map.mpr fun g hg => ?_⟩
    exact Nat.ne_of_lt (Nat.lt_of_lt_of_le (hold f hf) (hfs g hg))
  · refine List.forall_mem_append.mpr ⟨fun f hf => ?_, fun f hf => ?_⟩
    · refine assigns_eq_false_iff.mpr (List.forall_mem_append.mpr
        ⟨assigns_eq_false_iff.mp (h.2 f hf), fun e he => ?_⟩)
      exact Nat.ne_of_gt (Nat.lt_of_lt_of_le (hold f hf) (hes e he))
    · refine assigns_eq_false_iff.mpr (List.forall_mem_append.mpr ⟨fun e he => ?_, hapart f hf⟩)
      exact Nat.ne_of_lt (Nat.lt_of_lt_of_le (hw.effect he) (hfs f hf))

end Operator

namespace Task

/-- The task with other names for its values. -/
def renameValues (rename : String → String) (t : Task) : Task :=
  { t with vars := t.vars.map (Variable.renameValues rename) }

/-! ## Appending -/

/-- The variable is one of the second task and none of the first. -/
def IsNew (t t' : Task) (var : VarId) : Prop := t.vars.length ≤ var ∧ var < t'.vars.length

/-- The second task is the first one with additions: behind its parts stand new ones, the values of
its variables may have other names, and its operators have further conditions and effects on new
variables.  The effects of new operators are on new variables, too. -/
structure AppendsTo (rename : String → String) (t t' : Task) : Prop where
  metric : t'.metric = t.metric
  mutexes : t'.mutexes = t.mutexes
  rules : t'.rules = t.rules
  init : t.init <+: t'.init
  goal : t.goal <+: t'.goal
  vars : t.vars.map (Variable.renameValues rename) <+: t'.vars
  operators : ∃ change new, t'.operators = t.operators.map change ++ new ∧
    (∀ op ∈ t.operators, op.ExtendsTo (t.IsNew t') (change op)) ∧
      ∀ op ∈ new, ∀ e ∈ op.effects, t.IsNew t' e.var

variable {t t' t'' : Task} {rename : String → String} {var : VarId}

theorem IsNew.mono (h : t.IsNew t' var) (hlen : t'.vars.length ≤ t''.vars.length) :
    t.IsNew t'' var :=
  ⟨h.1, Nat.lt_of_lt_of_le h.2 hlen⟩

theorem IsNew.addGoal (h : t.IsNew t' var) (f : Fact) : t.IsNew (t'.addGoal f) var := h

namespace AppendsTo

theorem refl (t : Task) : AppendsTo id t t where
  metric := rfl
  mutexes := rfl
  rules := rfl
  init := List.prefix_refl _
  goal := List.prefix_refl _
  vars := by simp
  operators := ⟨id, [], by rw [List.map_id, List.append_nil], fun op _ => .refl _ op,
    List.forall_mem_nil _⟩

theorem length_le (h : AppendsTo rename t t') : t.vars.length ≤ t'.vars.length := by
  have hle := h.vars.length_le
  rwa [List.length_map] at hle

/-- The effects are on variables of a kind, if they were and new variables are of the kind. -/
theorem effects (h : AppendsTo rename t t') {P : VarId → Prop}
    (hold : ∀ op ∈ t.operators, ∀ e ∈ op.effects, P e.var) (hnew : ∀ v, t.IsNew t' v → P v) :
    ∀ op ∈ t'.operators, ∀ e ∈ op.effects, P e.var := by
  obtain ⟨change, new, hops, hchange, heffects⟩ := h.operators
  rw [hops]
  exact List.forall_mem_append.mpr
    ⟨List.forall_mem_map.mpr fun op hop => ((hchange op hop).imp hnew).effects (hold op hop),
      fun op hop e he => hnew _ (heffects op hop e he)⟩

/-- The effects are on variables that there are. -/
theorem effect_lt (h : AppendsTo rename t t') (hc : t.Consistent) :
    ∀ op ∈ t'.operators, ∀ e ∈ op.effects, e.var < t'.vars.length :=
  h.effects (P := (· < t'.vars.length))
    (fun _ hop _ he => Nat.lt_of_lt_of_le ((hc.within hop).effect he) h.length_le) fun _ hv => hv.2

theorem isPrefix (h : AppendsTo id t t') : t.vars <+: t'.vars := by
  have hvars := h.vars
  rwa [Variable.renameValues_id, List.map_id] at hvars

/-- The variable that is added next is new. -/
theorem isNew_nextVar (h : AppendsTo rename t t') (values : List String) (init : Nat) :
    t.IsNew (t'.addStateVariable values init) t'.nextVar :=
  ⟨h.length_le, by simp [nextVar]⟩

/-- The operators stay additions when there are more variables. -/
theorem operators_mono (h : AppendsTo rename t t') (hops : t''.operators = t'.operators)
    (hlen : t'.vars.length ≤ t''.vars.length) :
    ∃ change new, t''.operators = t.operators.map change ++ new ∧
      (∀ op ∈ t.operators, op.ExtendsTo (t.IsNew t'') (change op)) ∧
        ∀ op ∈ new, ∀ e ∈ op.effects, t.IsNew t'' e.var := by
  obtain ⟨change, new, hown, hchange, hnew⟩ := h.operators
  exact ⟨change, new, hops.trans hown, fun op hop => (hchange op hop).imp fun _ hv => hv.mono hlen,
    fun op hop e he => (hnew op hop e he).mono hlen⟩

/-- A variable is added. -/
theorem addStateVariable (h : AppendsTo rename t t') (values : List String) (init : Nat) :
    AppendsTo rename t (t'.addStateVariable values init) where
  metric := h.metric
  mutexes := h.mutexes
  rules := h.rules
  init := h.init.trans (List.prefix_append _ _)
  goal := h.goal
  vars := h.vars.trans (List.prefix_append _ _)
  operators := h.operators_mono rfl (by simp)

theorem addGoal (h : AppendsTo rename t t') (f : Fact) : AppendsTo rename t (t'.addGoal f) where
  metric := h.metric
  mutexes := h.mutexes
  rules := h.rules
  init := h.init
  goal := h.goal.trans (List.prefix_append _ _)
  vars := h.vars
  operators := h.operators

/-- Other operators, which are additions to the first task as well. -/
theorem withOperators (h : AppendsTo rename t t') {change : Operator → Operator}
    {new : List Operator} (hchange : ∀ op ∈ t.operators, op.ExtendsTo (t.IsNew t') (change op))
    (hnew : ∀ op ∈ new, ∀ e ∈ op.effects, t.IsNew t' e.var) :
    AppendsTo rename t { t' with operators := t.operators.map change ++ new } :=
  { h with operators := ⟨change, new, rfl, hchange, hnew⟩ }

/-- All operators are extended. -/
theorem mapOperators (h : AppendsTo rename t t') {change : Operator → Operator}
    (hchange : ∀ op : Operator, op.ExtendsTo (t.IsNew t') (change op)) :
    AppendsTo rename t (t'.mapOperators change) := by
  obtain ⟨first, new, hops, hfirst, hnew⟩ := h.operators
  have hmapped : t'.mapOperators change =
      { t' with operators := t.operators.map (change ∘ first) ++ new.map change } := by
    rw [Task.mapOperators, hops, List.map_append, List.map_map]
  rw [hmapped]
  refine h.withOperators (fun op hop => (hfirst op hop).trans (hchange _)) ?_
  exact List.forall_mem_map.mpr fun op hop => (hchange op).effects (hnew op hop)

/-- The operators of the first task are extended, the new ones stay as they are. -/
theorem mapOwnOperators (h : AppendsTo rename t t') {change : Operator → Operator}
    (hchange : ∀ op : Operator, op.ExtendsTo (t.IsNew t') (change op)) :
    AppendsTo rename t { t' with
      operators := (t'.operators.take t.operators.length).map change ++
        t'.operators.drop t.operators.length } := by
  obtain ⟨first, new, hops, hfirst, hnew⟩ := h.operators
  have hlen : t.operators.length = (t.operators.map first).length := (List.length_map first).symm
  rw [hops, hlen, List.take_left, List.drop_left, List.map_map]
  exact h.withOperators (fun op hop => (hfirst op hop).trans (hchange _)) hnew

/-- Operators with effects on new variables are added. -/
theorem addOperators (h : AppendsTo rename t t') {more : List Operator}
    (hmore : ∀ op ∈ more, ∀ e ∈ op.effects, t.IsNew t' e.var) :
    AppendsTo rename t { t' with operators := t'.operators ++ more } := by
  obtain ⟨change, new, hops, hchange, hnew⟩ := h.operators
  rw [hops, List.append_assoc]
  exact h.withOperators hchange (List.forall_mem_append.mpr ⟨hnew, hmore⟩)

/-- The values get other names. -/
theorem renameValues (h : AppendsTo id t t') (rename : String → String) :
    AppendsTo rename t (t'.renameValues rename) where
  metric := h.metric
  mutexes := h.mutexes
  rules := h.rules
  init := h.init
  goal := h.goal
  vars := h.isPrefix.map _
  operators := h.operators_mono rfl (by simp [Task.renameValues])

end AppendsTo

end Task

end PlanConstraints

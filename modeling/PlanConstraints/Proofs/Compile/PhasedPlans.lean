import PlanConstraints.Proofs.Compile.Checking

set_option autoImplicit false

/-!
# Plans with phases

The plans of a task with phases are the plans of the task it was made of, each followed by a change
of the phase and by checks.  A run of the new task is followed situation by situation: `Step` says
all that an operator can do, `Reached` is what every run establishes.
-/

namespace PlanConstraints

namespace Phases

variable {options : CompileOptions} {t : Task} {set : PropertySet} {compiled : Compiled}
  {checks : List (List Operator)}

/-! ## Steps -/

/-- What the operator of a number can do in a situation. -/
inductive Step (t : Task) (set : PropertySet) (c : Situation) : Nat → Situation → Prop where
  /-- An operator of the task, in the first phase. -/
  | own {i : Nat} {op : Operator} (hop : t.operators[i]? = some op)
    (happ : op.isApplicable c.state = true) (hphase : c.phase = 0) : Step t set c i (c.act i op)
  | change {i : Nat} (hi : t.operators.length ≤ i) (hphase : c.phase = 0) : Step t set c i c.change
  /-- A property is found to hold, in the second phase. -/
  | confirm {i j : Nat} {p : Property} (hi : t.operators.length ≤ i)
    (hp : set.properties[j]? = some p) (hphase : c.phase = 1)
    (hf : p.formula.eval (t.usesNamed set.actionSets c.path) = .ok true) :
    Step t set c i (c.check j 1)
  /-- A property is found not to hold. -/
  | refute {i j : Nat} (hi : t.operators.length ≤ i) (hphase : c.phase = 1) :
    Step t set c i (c.check j 0)

theorem getElem?_satisfactionVars {first j : Nat} {ps : List Property} {p : Property}
    (hp : ps[j]? = some p) : (satisfactionVars first ps)[j]? = some (first + j) := by
  rw [satisfactionVars, List.getElem?_range' (List.getElem?_eq_some_iff.mp hp).1, Nat.one_mul]

/-- The operators that check the property of number `j`. -/
theorem exists_checks (hr : Result options t set compiled checks) {j : Nat} {p : Property}
    (hp : set.properties[j]? = some p) :
    ∃ ops, checks[j]? = some ops ∧
      checkProperty (usedVars t set) t.vars.length options.negativeActions
        (p, t.vars.length + (1 + j)) = .ok ops := by
  rw [← Nat.add_assoc]
  exact getElem?_traverse hr.checks_eq
    (List.getElem?_zip_eq_some.mpr ⟨hp, getElem?_satisfactionVars hp⟩)

theorem exists_property_of_mem_checks (hr : Result options t set compiled checks)
    {ops : List Operator} (hops : ops ∈ checks) :
    ∃ (j : Nat) (p : Property), set.properties[j]? = some p ∧
      checkProperty (usedVars t set) t.vars.length options.negativeActions
        (p, t.vars.length + (1 + j)) = .ok ops := by
  obtain ⟨j, hj⟩ := List.mem_iff_getElem?.mp hops
  obtain ⟨⟨p, var⟩, hpair, hok⟩ := exists_of_getElem?_traverse hr.checks_eq hj
  obtain ⟨hp, hvar⟩ := List.getElem?_zip_eq_some.mp hpair
  rw [getElem?_satisfactionVars hp, Nat.add_assoc] at hvar
  cases hvar
  exact ⟨j, p, hp, hok⟩

/-- What the operators of the new task are: those of the task, the change of phase, and checks. -/
theorem getElem?_operators (hr : Result options t set compiled checks) {i : Nat} {op : Operator}
    (h : compiled.task.operators[i]? = some op) :
    (∃ own, t.operators[i]? = some own ∧ op = ownOperator t set own) ∨
      (t.operators.length ≤ i ∧ (op = changeOperator t ∨ op ∈ checks.flatten)) := by
  rw [hr.operators, List.getElem?_append] at h
  split at h
  · rw [List.getElem?_map, Option.map_eq_some_iff] at h
    obtain ⟨own, hown, rfl⟩ := h
    exact .inl ⟨own, hown, rfl⟩
  · next hge =>
    rw [List.length_map, Nat.not_lt] at hge
    exact .inr ⟨hge, List.mem_cons.mp (List.mem_of_getElem? h)⟩

/-- A checking operator that is applicable confirms or refutes a property. -/
theorem step_of_mem_checks (hr : Result options t set compiled checks) {c : Situation}
    (hlen : c.state.length = t.vars.length) {i : Nat} (hi : t.operators.length ≤ i) {op : Operator}
    (hop : op ∈ checks.flatten) (happ : op.isApplicable (c.encode t set) = true) :
    ∃ c', Step t set c i c' ∧ op.apply (c.encode t set) = c'.encode t set := by
  obtain ⟨ops, hops, hop⟩ := List.mem_flatten.mp hop
  obtain ⟨j, p, hp, hok⟩ := exists_property_of_mem_checks hr hops
  have hj : j < set.properties.length := (List.getElem?_eq_some_iff.mp hp).1
  obtain ⟨confirming, hconfirming, -, hall⟩ := exists_of_checkProperty hok
  rcases hall op hop with hop | ⟨refuting, hrefuting, hop⟩
  · have hk : Checks t set j ⟨p, "check_", t.vars.length, t.vars.length + (1 + j), 1⟩ :=
      ⟨hj, rfl, rfl⟩
    obtain ⟨hphase, hf⟩ := eval_of_isApplicable_checking hlen hk hconfirming hop happ
    obtain ⟨number, tests, rfl⟩ := exists_eq_operator_of_checkFormula hconfirming hop
    exact ⟨c.check j 1, .confirm hi hp hphase hf, apply_checking hlen hk number tests⟩
  · have hk : Checks t set j ⟨p, "neg_check_", t.vars.length, t.vars.length + (1 + j), 0⟩ :=
      ⟨hj, rfl, rfl⟩
    obtain ⟨hphase, -⟩ := eval_of_isApplicable_checking hlen hk hrefuting hop happ
    obtain ⟨number, tests, rfl⟩ := exists_eq_operator_of_checkFormula hrefuting hop
    exact ⟨c.check j 0, .refute hi hphase, apply_checking hlen hk number tests⟩

/-- An operator of the new task that is applicable makes a step. -/
theorem step_of_isApplicable (hc : t.Consistent) (hr : Result options t set compiled checks)
    {c : Situation} (hlen : c.state.length = t.vars.length) {i : Nat} {op : Operator}
    (hop : compiled.task.operators[i]? = some op)
    (happ : op.isApplicable (c.encode t set) = true) :
    ∃ c', Step t set c i c' ∧ op.apply (c.encode t set) = c'.encode t set := by
  rcases getElem?_operators hr hop with ⟨own, hown, rfl⟩ | ⟨hi, rfl | hop⟩
  · have hw := hc.within (List.mem_of_getElem? hown)
    obtain ⟨happ, hphase⟩ := (isApplicable_ownOperator hlen hw).mp happ
    exact ⟨c.act i own, .own hown happ hphase, apply_ownOperator hlen hown hw⟩
  · exact ⟨c.change, .change hi ((isApplicable_changeOperator hlen).mp happ),
      apply_changeOperator hlen⟩
  · exact step_of_mem_checks hr hlen hi hop happ

/-! ## Runs -/

/-- What a run of the new task establishes. -/
structure Reached (t : Task) (set : PropertySet) (numbers : List Nat) (c : Situation) : Prop where
  path : c.path = t.originals numbers
  run : t.runAt? c.path = some c.state
  /-- Properties are found to hold in the second phase only, and only those that do. -/
  satisfied : ∀ j, c.satisfied j = 1 → c.phase = 1 ∧ ∀ p, set.properties[j]? = some p →
    p.formula.eval (t.usesNamed set.actionSets c.path) = .ok true

theorem reached_start (t : Task) (set : PropertySet) : Reached t set [] (start t) :=
  ⟨rfl, rfl, fun _ h => absurd h (Nat.zero_ne_one)⟩

/-- Every step keeps what has been established. -/
theorem Reached.step {numbers : List Nat} {c c' : Situation} {i : Nat}
    (hreached : Reached t set numbers c) (hstep : Step t set c i c') :
    Reached t set (numbers ++ [i]) c' := by
  obtain ⟨hpath, hrun, hsat⟩ := hreached
  cases hstep with
  | own hop happ hphase =>
    have hi : i < t.operators.length := (List.getElem?_eq_some_iff.mp hop).1
    refine ⟨?_, Task.runAt?_concat_eq_some_iff.mpr ⟨c.state, _, hrun, hop, happ, rfl⟩, ?_⟩
    · rw [Task.originals_concat, if_pos hi, ← hpath]
      rfl
    · intro j hj
      have hone := (hsat j hj).1
      rw [hphase] at hone
      cases hone
  | change hi hphase =>
    refine ⟨?_, hrun, fun j hj => ⟨rfl, (hsat j hj).2⟩⟩
    rw [Task.originals_concat, if_neg (Nat.not_lt.mpr hi), List.append_nil]
    exact hpath
  | @confirm j p hi hp hphase hf =>
    refine ⟨?_, hrun, fun j' hj' => ⟨hphase, ?_⟩⟩
    · rw [Task.originals_concat, if_neg (Nat.not_lt.mpr hi), List.append_nil]
      exact hpath
    · by_cases hsame : j' = j
      · subst hsame
        intro p' hp'
        rw [hp] at hp'
        cases hp'
        exact hf
      · exact (hsat j' (by simpa [Situation.check, hsame] using hj')).2
  | @refute j hi hphase =>
    refine ⟨?_, hrun, fun j' hj' => ⟨hphase, ?_⟩⟩
    · rw [Task.originals_concat, if_neg (Nat.not_lt.mpr hi), List.append_nil]
      exact hpath
    · by_cases hsame : j' = j
      · simp [Situation.check, hsame] at hj'
      · exact (hsat j' (by simpa [Situation.check, hsame] using hj')).2

/-- The initial state of the new task. -/
theorem encode_start (hr : Result options t set compiled checks) :
    (start t).encode t set = compiled.task.init := by
  rw [hr.init, Situation.encode, roles, List.map_cons, List.map_append, List.map_map, List.map_map]
  have hused : (Situation.value t set (start t) ∘ Role.used) = fun _ => 0 := by
    funext j
    cases hget : set.actionSets.sets[j]? <;> simp [Situation.value, start, hget]
  have hsat : (Situation.value t set (start t) ∘ Role.satisfied) = fun _ => 0 := rfl
  rw [hused, hsat, List.map_const', List.map_const', List.length_range, List.length_range]
  rfl

/-- Every state that the new task reaches is that of a situation. -/
theorem exists_reached (hc : t.Consistent) (hr : Result options t set compiled checks)
    {numbers : List Nat} {s : Assignment} (h : compiled.task.runAt? numbers = some s) :
    ∃ c, s = c.encode t set ∧ Reached t set numbers c := by
  induction numbers using List.reverseRecOn generalizing s with
  | nil =>
    cases h
    exact ⟨start t, (encode_start hr).symm, reached_start t set⟩
  | append_singleton numbers i ih =>
    obtain ⟨_, op, hs, hop, happ, rfl⟩ := Task.runAt?_concat_eq_some_iff.mp h
    obtain ⟨c, rfl, hreached⟩ := ih hs
    have hlen := (Task.isState_of_runAt? hc hreached.run).length_eq
    obtain ⟨c', hstep, hnext⟩ := step_of_isApplicable hc hr hlen hop happ
    exact ⟨c', hnext, hreached.step hstep⟩

/-- The goal of the new task, in a situation. -/
theorem isGoal_encode (hc : t.Consistent) (hr : Result options t set compiled checks)
    {c : Situation} (hlen : c.state.length = t.vars.length) :
    compiled.task.isGoal (c.encode t set) = true ↔
      t.isGoal c.state = true ∧
        (options.addGoals = true → ∀ j < set.properties.length, c.satisfied j = 1) := by
  have hown : (∀ f ∈ t.goal, f.holds (c.encode t set) = true) ↔ t.isGoal c.state = true := by
    rw [Task.isGoal, List.all_eq_true]
    refine forall₂_congr fun f hf => ?_
    rw [Situation.encode, Fact.holds_append (by rw [hlen]; exact (hc.goal f hf).var_lt)]
  have hadded : (∀ f ∈ (List.range set.properties.length).map
      fun j => (⟨t.vars.length + (1 + j), 1⟩ : Fact), f.holds (c.encode t set) = true) ↔
      ∀ j < set.properties.length, c.satisfied j = 1 := by
    rw [List.forall_mem_map]
    refine forall_congr' fun j => ?_
    rw [List.mem_range]
    exact imp_congr_right fun hj => Situation.holds_encode_iff hlen (roles_satisfied hj)
  rw [Task.isGoal, hr.goal, List.all_eq_true, List.forall_mem_append, hown]
  refine and_congr_right fun _ => ?_
  split
  · next hgoals => rw [hadded, forall_prop_of_true hgoals]
  · next hgoals => simp [hgoals]

/-! ## Following a plan -/

/-- A run of the task is a run of the new one, in the first phase. -/
theorem runAt?_of_run (hc : t.Consistent) (hr : Result options t set compiled checks)
    {path : List Nat} {s : Assignment} (h : t.runAt? path = some s) :
    compiled.task.runAt? path = some ((⟨path, s, 0, fun _ => 0⟩ : Situation).encode t set) := by
  induction path using List.reverseRecOn generalizing s with
  | nil =>
    cases h
    exact congrArg some (encode_start hr).symm
  | append_singleton path i ih =>
    obtain ⟨s, op, hs, hop, happ, rfl⟩ := Task.runAt?_concat_eq_some_iff.mp h
    have hi : i < t.operators.length := (List.getElem?_eq_some_iff.mp hop).1
    have hlen := (Task.isState_of_runAt? hc hs).length_eq
    have hw := hc.within (List.mem_of_getElem? hop)
    refine Task.runAt?_concat_eq_some_iff.mpr ⟨_, ownOperator t set op, ih hs, ?_,
      (isApplicable_ownOperator hlen hw).mpr ⟨happ, rfl⟩, apply_ownOperator hlen hop hw⟩
    rw [hr.operators, List.getElem?_append_left (by simpa using hi), List.getElem?_map, hop]
    rfl

/-- The phase can be changed after a run. -/
theorem runAt?_change (hr : Result options t set compiled checks) {numbers : List Nat}
    {c : Situation} (hlen : c.state.length = t.vars.length)
    (h : compiled.task.runAt? numbers = some (c.encode t set)) (hphase : c.phase = 0) :
    compiled.task.runAt? (numbers ++ [t.operators.length]) = some (c.change.encode t set) := by
  refine Task.runAt?_concat_eq_some_iff.mpr ⟨_, changeOperator t, h, ?_,
    (isApplicable_changeOperator hlen).mpr hphase, apply_changeOperator hlen⟩
  rw [hr.operators, List.getElem?_append_right (by simp)]
  simp

/-- A property that holds can be found to hold in the second phase. -/
theorem exists_runAt?_confirm (hr : Result options t set compiled checks) {numbers : List Nat}
    {c : Situation} (hlen : c.state.length = t.vars.length)
    (h : compiled.task.runAt? numbers = some (c.encode t set)) (hphase : c.phase = 1) {j : Nat}
    {p : Property} (hp : set.properties[j]? = some p)
    (hf : p.formula.eval (t.usesNamed set.actionSets c.path) = .ok true) :
    ∃ i, t.operators.length ≤ i ∧
      compiled.task.runAt? (numbers ++ [i]) = some ((c.check j 1).encode t set) := by
  have hj : j < set.properties.length := (List.getElem?_eq_some_iff.mp hp).1
  obtain ⟨ops, hops, hok⟩ := exists_checks hr hp
  obtain ⟨confirming, hconfirming, hsub, -⟩ := exists_of_checkProperty hok
  have hk : Checks t set j ⟨p, "check_", t.vars.length, t.vars.length + (1 + j), 1⟩ :=
    ⟨hj, rfl, rfl⟩
  obtain ⟨op, hop, happ⟩ := exists_isApplicable_checking hlen hk hconfirming hphase hf
  have hmem : op ∈ checks.flatten :=
    List.mem_flatten.mpr ⟨ops, List.mem_of_getElem? hops, hsub op hop⟩
  obtain ⟨i, hi⟩ := List.mem_iff_getElem?.mp hmem
  obtain ⟨number, tests, rfl⟩ := exists_eq_operator_of_checkFormula hconfirming hop
  refine ⟨t.operators.length + (i + 1), Nat.le_add_right _ _,
    Task.runAt?_concat_eq_some_iff.mpr ⟨_, _, h, ?_, happ, apply_checking hlen hk number tests⟩⟩
  rw [hr.operators, List.getElem?_append_right (by simp)]
  simp [hi]

/-- All properties that hold can be found to hold, one after the other. -/
theorem exists_runAt?_confirmAll (hr : Result options t set compiled checks) {numbers : List Nat}
    {c : Situation} (hlen : c.state.length = t.vars.length)
    (h : compiled.task.runAt? numbers = some (c.encode t set)) (hphase : c.phase = 1)
    (hf : ∀ p ∈ set.properties, p.formula.eval (t.usesNamed set.actionSets c.path) = .ok true)
    {count : Nat} (hcount : count ≤ set.properties.length) :
    ∃ (more : List Nat) (c' : Situation), (∀ i ∈ more, t.operators.length ≤ i) ∧
      compiled.task.runAt? (numbers ++ more) = some (c'.encode t set) ∧
        c'.path = c.path ∧ c'.state = c.state ∧ c'.phase = 1 ∧ ∀ j < count, c'.satisfied j = 1 := by
  induction count with
  | zero => exact ⟨[], c, by simp, by simpa using h, rfl, rfl, hphase, by simp⟩
  | succ count ih =>
    obtain ⟨more, c', hmore, hrun, hpath, hstate, hphase', hsat⟩ := ih (Nat.le_of_succ_le hcount)
    have hp := List.getElem?_eq_getElem (l := set.properties) hcount
    obtain ⟨i, hi, hrun'⟩ := exists_runAt?_confirm hr (hstate ▸ hlen) hrun hphase' hp
      (hpath ▸ hf _ (List.mem_of_getElem? hp))
    refine ⟨more ++ [i], c'.check count 1, ?_, by rw [← List.append_assoc]; exact hrun', hpath,
      hstate, hphase', fun j hj => ?_⟩
    · intro i' hi'
      rcases List.mem_append.mp hi' with hi' | hi'
      · exact hmore i' hi'
      · rw [List.mem_singleton.mp hi']
        exact hi
    · by_cases hsame : j = count
      · simp [Situation.check, hsame]
      · simpa [Situation.check, hsame] using hsat j (by omega)

/-! ## Costs -/

/-- Checks cost nothing. -/
theorem cost_of_mem_checks (hr : Result options t set compiled checks) {op : Operator}
    (hop : op ∈ checks.flatten) : op.cost = 0 := by
  obtain ⟨ops, hops, hop⟩ := List.mem_flatten.mp hop
  obtain ⟨j, p, -, hok⟩ := exists_property_of_mem_checks hr hops
  obtain ⟨confirming, hconfirming, -, hall⟩ := exists_of_checkProperty hok
  rcases hall op hop with hop | ⟨refuting, hrefuting, hop⟩
  · obtain ⟨number, tests, rfl⟩ := exists_eq_operator_of_checkFormula hconfirming hop
    rfl
  · obtain ⟨number, tests, rfl⟩ := exists_eq_operator_of_checkFormula hrefuting hop
    rfl

/-- A run costs what its operators of the task cost. -/
theorem cost_of_runAt? (hr : Result options t set compiled checks) {numbers : List Nat}
    {s : Assignment} (h : compiled.task.runAt? numbers = some s) :
    compiled.task.cost numbers = t.cost (t.originals numbers) := by
  induction numbers using List.reverseRecOn generalizing s with
  | nil => rfl
  | append_singleton numbers i ih =>
    obtain ⟨s', op, hs, hop, -, -⟩ := Task.runAt?_concat_eq_some_iff.mp h
    rw [Task.cost_concat, ih hs, Task.originals_concat, hop]
    rcases getElem?_operators hr hop with ⟨own, hown, rfl⟩ | ⟨hi, hkind⟩
    · rw [if_pos (List.getElem?_eq_some_iff.mp hown).1, Task.cost_concat, hown]
      rfl
    · rw [if_neg (Nat.not_lt.mpr hi), List.append_nil]
      rcases hkind with rfl | hop
      · exact Int.add_zero _
      · simp [cost_of_mem_checks hr hop]

/-! ## Plans -/

/-- The formulas of all properties are true after the operators of the given numbers. -/
def Satisfies (t : Task) (set : PropertySet) (path : List Nat) : Prop :=
  ∀ p ∈ set.properties, p.formula.eval (t.usesNamed set.actionSets path) = .ok true

/-- A plan that satisfies the properties, where that is required, becomes one of the new task. -/
theorem exists_isPlanTo (hc : t.Consistent) (hr : Result options t set compiled checks)
    {path : List Nat} {s : Assignment} (h : t.IsPlanTo path s)
    (hprops : options.addGoals = true → Satisfies t set path) :
    ∃ numbers s', compiled.task.IsPlanTo numbers s' ∧ t.originals numbers = path := by
  obtain ⟨hrun, hgoal⟩ := h
  have hlen := (Task.isState_of_runAt? hc hrun).length_eq
  have hfirst := runAt?_of_run hc hr hrun
  have hpath := Task.originals_of_runAt? hrun
  cases hadd : options.addGoals with
  | false =>
    exact ⟨path, _, ⟨hfirst, (isGoal_encode hc hr hlen).mpr ⟨hgoal, by simp [hadd]⟩⟩, hpath⟩
  | true =>
    have hchange := runAt?_change hr hlen hfirst rfl
    obtain ⟨more, c, hmore, hrun', -, hstate, -, hsat⟩ :=
      exists_runAt?_confirmAll hr hlen hchange rfl (hprops hadd) (Nat.le_refl _)
    have hgoal' : t.isGoal c.state = true := by rw [hstate]; exact hgoal
    refine ⟨_, _, ⟨hrun', (isGoal_encode hc hr (hstate ▸ hlen)).mpr ⟨hgoal', fun _ => hsat⟩⟩, ?_⟩
    rw [Task.originals_append, t.originals_eq_nil hmore, List.append_nil, Task.originals_concat,
      if_neg (Nat.lt_irrefl _), List.append_nil, hpath]

/-- The operators of the task in a plan of the new one are a plan that satisfies the properties,
where that is required. -/
theorem isPlanTo_originals (hc : t.Consistent) (hr : Result options t set compiled checks)
    {numbers : List Nat} {s : Assignment} (h : compiled.task.IsPlanTo numbers s) :
    ∃ s', t.IsPlanTo (t.originals numbers) s' ∧ (∀ v < t.vars.length, s[v]? = s'[v]?) ∧
      (options.addGoals = true → Satisfies t set (t.originals numbers)) := by
  obtain ⟨hrun, hgoal⟩ := h
  obtain ⟨c, rfl, hpath, hrun', hsat⟩ := exists_reached hc hr hrun
  have hlen := (Task.isState_of_runAt? hc hrun').length_eq
  obtain ⟨hgoal, hprops⟩ := (isGoal_encode hc hr hlen).mp hgoal
  rw [← hpath]
  refine ⟨c.state, ⟨hrun', hgoal⟩, fun v hv => Situation.getElem?_encode_of_lt hlen hv, ?_⟩
  intro hadd p hp
  obtain ⟨j, hj⟩ := List.mem_iff_getElem?.mp hp
  exact (hsat j (hprops hadd j (List.getElem?_eq_some_iff.mp hj).1)).2 p hj

end Phases

/-- The compilation of properties over action sets keeps plans, their costs and what they lead to:
the plans of the new task are those of the task, which have to satisfy the properties if goals are
added, with bookkeeping.

Only `hcheck` is asked of the task, whatever the options: the operators of a consistent task speak
of its own variables, behind which the new ones stand.  The first part is an equivalence for every
path; that a plan which uses the sets as the properties want can be extended to one of the new task
is its harder direction. -/
theorem compileActionSets_plans {options : CompileOptions} {t : Task} {set : PropertySet}
    {compiled : Compiled} (hcheck : t.check = .ok ())
    (h : compileActionSets options t set = .ok compiled) :
    (∀ path, ((∃ s, t.IsPlanTo path s) ∧ (options.addGoals = true → ∀ p ∈ set.properties,
          p.formula.eval (t.usesNamed set.actionSets path) = .ok true)) ↔
        ∃ numbers s, compiled.task.IsPlanTo numbers s ∧ t.originals numbers = path) ∧
      ∀ numbers s, compiled.task.IsPlanTo numbers s →
        compiled.task.cost numbers = t.cost (t.originals numbers) ∧
          ∃ s', t.runAt? (t.originals numbers) = some s' ∧
            ∀ v < t.vars.length, s[v]? = s'[v]? := by
  have hc := t.check_eq_ok_iff.mp hcheck
  obtain ⟨checks, hr⟩ := Phases.exists_result h
  refine ⟨fun path => ⟨?_, ?_⟩, ?_⟩
  · rintro ⟨⟨s, hplan⟩, hprops⟩
    exact Phases.exists_isPlanTo hc hr hplan hprops
  · rintro ⟨numbers, s, hplan, rfl⟩
    obtain ⟨s', hplan', -, hprops⟩ := Phases.isPlanTo_originals hc hr hplan
    exact ⟨⟨s', hplan'⟩, hprops⟩
  · intro numbers s hplan
    obtain ⟨s', hplan', hsame, -⟩ := Phases.isPlanTo_originals hc hr hplan
    exact ⟨Phases.cost_of_runAt? hr hplan.1, s', hplan'.1, hsame⟩

/-- Two ways to the goal, on foot or by bus. -/
def commute : Task where
  metric := true
  vars := [⟨"var0", -1, ["Atom at-home", "Atom at-work"]⟩]
  mutexes := []
  init := [0]
  goal := [⟨0, 1⟩]
  operators := [.ofEffects "walk" [.assign 0 (some 0) 1] 3,
    .ofEffects "ride" [.assign 0 (some 0) 1] 1]
  rules := []

/-- The way has to be by bus. -/
def commuteByBus : PropertySet where
  actionSets := ⟨[⟨⟨.ofName "rides", [[.ofName "ride"]]⟩, [⟨"ride", []⟩], [⟨"ride", 0, .nil⟩]⟩]⟩
  properties := [⟨.ofName "by-bus", .atom (.ofName "rides"), false⟩]
  temporal := []
  softGoals := []

/-- With the property, only one of the two plans is left. -/
theorem commute_plans : ∃ compiled,
    compileActionSets ⟨true, true, false, .exact, "soft_"⟩ commute commuteByBus = .ok compiled ∧
      (∃ numbers s, compiled.task.IsPlanTo numbers s ∧ commute.originals numbers = [1]) ∧
        ¬ ∃ numbers s, compiled.task.IsPlanTo numbers s ∧ commute.originals numbers = [0] := by
  obtain ⟨compiled, h⟩ := exists_of_isOk
    (x := compileActionSets ⟨true, true, false, .exact, "soft_"⟩ commute commuteByBus)
    (by decide +kernel)
  have hplans := (compileActionSets_plans (by decide) h).1
  have hrides : commute.usesNamed commuteByBus.actionSets [1] (.ofName "rides") = true := by
    decide +kernel
  have hwalks : commute.usesNamed commuteByBus.actionSets [0] (.ofName "rides") = false := by
    decide +kernel
  refine ⟨compiled, h, (hplans [1]).mp ⟨⟨[1], rfl, rfl⟩, fun _ => ?_⟩, fun hwalk => ?_⟩
  · exact List.forall_mem_singleton.mpr (congrArg Except.ok hrides)
  · have hprop := List.forall_mem_singleton.mp (((hplans [0]).mpr hwalk).2 rfl)
    rw [Formula.eval, hwalks] at hprop
    cases hprop

end PlanConstraints

import PlanConstraints.Proofs.Temporal.Additions

set_option autoImplicit false

/-!
# Strict turns

An operator that takes turns is applicable only in the turn of its owner, and passes the turn on.
No other effect is on the variable for turns: it is there before the automata, which have effects on
variables of their own (`Product.Turned`).  So the variable counts the operators of a run
(`Product.Turned.getElem?_runAt?`), which take strict turns whatever the atoms of guards refer to
(`takesTurns_of_runAt?`).
-/

namespace PlanConstraints

open Temporal

/-! ## The variable for turns -/

section

variable {turn count owner : Nat} {op : Operator} {s : Assignment}

theorem effects_takeTurn (turn count owner : Nat) (op : Operator) :
    (takeTurn turn count owner op).effects =
      op.effects ++ [.assign turn (some owner) ((owner + 1) % count)] := rfl

/-- An operator is applicable only in the turn of its owner. -/
theorem getElem?_of_isApplicable_takeTurn
    (happ : (takeTurn turn count owner op).isApplicable s = true) : s[turn]? = some owner := by
  have hcondition : (⟨turn, owner⟩ : Fact) ∈ (takeTurn turn count owner op).preconditions := by
    rw [Operator.preconditions, effects_takeTurn, List.filterMap_append]
    exact List.mem_append_right _ (List.mem_append_right _ (List.mem_singleton_self _))
  exact (Operator.isApplicable_iff _ s).mp happ _ hcondition

/-- The turn is passed on, if no other effect is on the variable. -/
theorem getElem?_apply_takeTurn (hspares : ∀ e ∈ op.effects, e.var ≠ turn)
    (hs : s[turn]? = some owner) :
    ((takeTurn turn count owner op).apply s)[turn]? = some ((owner + 1) % count) := by
  have hnone : (op.effects.filter fun e => e.var == turn) = [] := by
    rw [List.filter_eq_nil_iff]
    intro e he heq
    exact hspares e he (beq_iff_eq.mp heq)
  have hpass : (takeTurn turn count owner op).effectsOn turn =
      [.assign turn (some owner) ((owner + 1) % count)] := by
    rw [Operator.effectsOn, effects_takeTurn, List.filter_append, hnone, List.nil_append]
    simp
  rw [Operator.getElem?_apply, hs, hpass]
  simp

end

/-! ## Products -/

/-- What the compilation of some automata makes of a task, whatever the atoms of guards refer to:
further variables behind the one for turns, as many operators as before, and operators that are
those of transitions. -/
structure Product.Turned (options : CompileOptions) (t : Task) (set : PropertySet)
    (automata : List (Automaton Symbol)) (seen : List (Property × Automaton Symbol))
    (product : Product) : Prop where
  appends : product.AppendsTo (addTurns options (recordingOf t set).task automata)
  length_operators : product.tracked.task.operators.length = t.operators.length
  length_vars : product.vars.length = seen.length
  length_moves : product.moves.length = seen.length
  ofTransition : ∀ (k : Nat) ops, product.moves[k]? = some ops → ∃ p vars,
    seen[k]? = some p ∧ product.vars[k]? = some vars ∧
      ∀ op ∈ ops, Scope.IsOfTransition options.acceptance p.2 vars op

section

variable {options : CompileOptions} {t : Task} {set : PropertySet}
  {automata : List (Automaton Symbol)} {seen : List (Property × Automaton Symbol)}
  {product product' : Product}

theorem Product.turned_start (options : CompileOptions) (t : Task) (set : PropertySet)
    (automata : List (Automaton Symbol)) :
    Product.Turned options t set automata []
      ⟨⟨addTurns options (recordingOf t set).task automata, []⟩, [], []⟩ where
  appends := ⟨.refl _, List.forall_mem_nil _⟩
  length_operators := by
    simp [operators_addTurns, recordingOf, task_recordSets, recordAll]
  length_vars := rfl
  length_moves := rfl
  ofTransition := fun _ _ h => by cases h

/-- An automaton is added. -/
theorem Product.Turned.add (h : product.Turned options t set automata seen)
    {usedVars : List (String × VarId)} {p : Property × Automaton Symbol}
    (hadd : product.add options usedVars p = .ok product') :
    product'.Turned options t set automata (seen ++ [p]) := by
  have happends := (h.appends.add hadd).1
  obtain ⟨m, ops, rfl, hmakes⟩ := Product.exists_of_add (fun _ => True) hadd
    fun _ _ _ _ _ _ _ _ _ => trivial
  refine ⟨happends, ?_, by simp [h.length_vars], by simp [h.length_moves], fun k ops' hops => ?_⟩
  · rw [hmakes.tracks.length_operators, operators_addAutomaton, h.length_operators]
  · rcases getElem?_concat_eq_some_iff.mp hops with hold | ⟨rfl, rfl⟩
    · obtain ⟨q, vars, hq, hvars, hmoves⟩ := h.ofTransition k ops' hold
      exact ⟨q, vars, getElem?_concat_eq_some_iff.mpr (.inl hq),
        getElem?_concat_eq_some_iff.mpr (.inl hvars), hmoves⟩
    · exact ⟨p, _, by simp [h.length_moves], by simp [h.length_moves, ← h.length_vars],
        fun op hop => (hmakes.isMove op hop).ofTransition⟩

/-- All automata are added. -/
theorem turned_of_productOf (h : productOf options t set automata = .ok product) :
    product.Turned options t set automata (set.temporal.zip automata) :=
  foldSteps_induction (fun seen product => product.Turned options t set automata seen) h
    (Product.turned_start options t set automata) fun _ _ _ _ _ hproduct hadd => hproduct.add hadd

namespace Product.Turned

/-- No operator has an effect on the variable for turns yet. -/
theorem spares (h : product.Turned options t set automata seen) (hc : t.Consistent) :
    (∀ op ∈ product.tracked.task.operators, ∀ e ∈ op.effects, e.var ≠ turnVar t set) ∧
      ∀ ops ∈ product.moves, ∀ op ∈ ops, ∀ e ∈ op.effects, e.var ≠ turnVar t set := by
  have hturn :
      turnVar t set < (addTurns options (recordingOf t set).task automata).vars.length := by
    rw [← nextVar_recordingOf]
    exact (appendsTo_addTurns options (.refl (recordingOf t set).task) automata).2.2
  have hnew : ∀ {v}, Task.IsNew (addTurns options (recordingOf t set).task automata)
      product.tracked.task v → v ≠ turnVar t set := fun hv =>
    Nat.ne_of_gt (Nat.lt_of_lt_of_le hturn hv.1)
  have hrecording : ∀ op ∈ (recordingOf t set).task.operators, ∀ e ∈ op.effects,
      e.var ≠ turnVar t set := fun op hop e he => by
    rw [← nextVar_recordingOf]
    have hkeeps := (Task.AppendsTo.refl t).recordSets set.actionSets
    exact Nat.ne_of_lt (hkeeps.effect_lt hc op hop e he)
  refine ⟨h.appends.task.effects ?_ fun v hv => hnew hv, fun ops hops op hop e he =>
    hnew (h.appends.moves ops hops op hop e he)⟩
  rw [operators_addTurns]
  exact hrecording

/-- The task has the first turn. -/
theorem init (h : product.Turned options t set automata seen) (hc : t.Consistent) :
    product.tracked.task.init[turnVar t set]? = some 0 := by
  have hlength : (recordingOf t set).task.init.length = turnVar t set := by
    simp [recordingOf, task_recordSets, hc.length_init, turnVar]
  have hinit : (addTurns options (recordingOf t set).task automata).init =
      (recordingOf t set).task.init ++ [0] := by
    unfold addTurns
    cases options.addGoals <;> rfl
  have hfirst : (addTurns options (recordingOf t set).task automata).init[turnVar t set]? =
      some 0 := by
    rw [hinit, ← hlength, List.getElem?_concat_length]
  exact getElem?_of_prefix h.appends.task.init hfirst

/-- The operators of the new task: those of the task come first, and are in its turn; then those of
transitions, each in the turn of its automaton. -/
theorem exists_takeTurn (h : product.Turned options t set automata (set.temporal.zip automata))
    (hc : t.Consistent) {number : Nat} {op : Operator}
    (hop : (product.inTurns (turnVar t set) (automata.length + 1)).operators[number]? = some op) :
    ∃ owner own, op = takeTurn (turnVar t set) (automata.length + 1) owner own ∧
      (∀ e ∈ own.effects, e.var ≠ turnVar t set) ∧
      ((owner = 0 ∧ number < t.operators.length) ∨ ∃ (k : Nat) (a : Automaton Symbol)
        (tr : Transition Symbol), owner = k + 1 ∧ t.operators.length ≤ number ∧
          automata[k]? = some a ∧ tr ∈ a.transitions ∧
            IsOperatorOf options t set automata product k tr op) := by
  obtain ⟨hspares, hmoves⟩ := h.spares hc
  rw [Product.inTurns, List.getElem?_append] at hop
  simp only [Task.operators_mapOperators, List.length_map, h.length_operators] at hop
  split at hop
  · next hlt =>
    rw [List.getElem?_map, Option.map_eq_some_iff] at hop
    obtain ⟨own, hown, rfl⟩ := hop
    exact ⟨0, own, rfl, hspares own (List.mem_of_getElem? hown), .inl ⟨rfl, hlt⟩⟩
  · next hge =>
    obtain ⟨k, ops, own, hops, hown, rfl⟩ := mem_movesInTurn.mp (List.mem_of_getElem? hop)
    obtain ⟨⟨p, a⟩, vars, hp, hvars, hof⟩ := h.ofTransition k ops hops
    have ha : automata[k]? = some a := (List.getElem?_zip_eq_some.mp hp).2
    obtain ⟨tr, htr, source, target, number?, tests, hsource, htarget, rfl⟩ := hof own hown
    refine ⟨1 + k, _, rfl, hmoves ops (List.mem_of_getElem? hops) _ hown, .inr ⟨k, a, tr,
      Nat.add_comm 1 k, Nat.not_lt.mp hge, ha, htr, a, vars, source, target, number?, tests, ha,
      hvars, hsource, htarget, ?_⟩⟩
    rw [moveOperator, Nat.add_comm 1 k]

/-- The variable for turns counts the operators of a run. -/
theorem getElem?_runAt? (h : product.Turned options t set automata (set.temporal.zip automata))
    (hc : t.Consistent) {numbers : List Nat} {s : Assignment}
    (hrun : (product.inTurns (turnVar t set) (automata.length + 1)).runAt? numbers = some s) :
    s[turnVar t set]? = some (numbers.length % (automata.length + 1)) := by
  induction numbers using List.reverseRecOn generalizing s with
  | nil =>
    cases hrun
    exact h.init hc
  | append_singleton numbers i ih =>
    obtain ⟨s', op, hs', hop, happ, rfl⟩ := Task.runAt?_concat_eq_some_iff.mp hrun
    obtain ⟨owner, own, rfl, hspares, -⟩ := h.exists_takeTurn hc hop
    have howner := getElem?_of_isApplicable_takeTurn happ
    obtain rfl : owner = numbers.length % (automata.length + 1) :=
      Option.some.inj (howner.symm.trans (ih hs'))
    rw [getElem?_apply_takeTurn hspares howner, Nat.mod_add_mod, List.length_append,
      List.length_singleton]

end Product.Turned

/-- The operators of a run take strict turns: one of the task comes first, then a transition of each
automaton in order, then again one of the task. -/
theorem takesTurns_of_runAt? (hc : t.Consistent)
    (hproduct : productOf options t set automata = .ok product) {numbers : List Nat}
    {s : Assignment}
    (hrun : (product.inTurns (turnVar t set) (automata.length + 1)).runAt? numbers = some s)
    {i number : Nat} (hi : numbers[i]? = some number) :
    (i % (automata.length + 1) = 0 ∧ number < t.operators.length) ∨
      ∃ (k : Nat) (a : Automaton Symbol) (tr : Transition Symbol) (op : Operator),
        i % (automata.length + 1) = k + 1 ∧ t.operators.length ≤ number ∧ automata[k]? = some a ∧
          tr ∈ a.transitions ∧
            (product.inTurns (turnVar t set) (automata.length + 1)).operators[number]? = some op ∧
              IsOperatorOf options t set automata product k tr op := by
  have hturned := turned_of_productOf hproduct
  have hlt : i < numbers.length := (List.getElem?_eq_some_iff.mp hi).1
  have hsplit : numbers.take i ++ [number] ++ numbers.drop (i + 1) = numbers := by
    rw [← (List.getElem?_eq_some_iff.mp hi).2, List.take_append_getElem, List.take_append_drop]
  obtain ⟨_, hs₁⟩ := Task.exists_runAt?_of_append (hsplit.symm ▸ hrun)
  obtain ⟨s₀, op, hs₀, hop, happ, -⟩ := Task.runAt?_concat_eq_some_iff.mp hs₁
  have hcount := hturned.getElem?_runAt? hc hs₀
  rw [List.length_take_of_le (Nat.le_of_lt hlt)] at hcount
  obtain ⟨owner, own, rfl, -, howner⟩ := hturned.exists_takeTurn hc hop
  obtain rfl : owner = i % (automata.length + 1) :=
    Option.some.inj ((getElem?_of_isApplicable_takeTurn happ).symm.trans hcount)
  rcases howner with htask | ⟨k, a, tr, howner, hnumber, ha, htr, hof⟩
  · exact .inl htask
  · exact .inr ⟨k, a, tr, _, howner, hnumber, ha, htr, hop, hof⟩

end

end PlanConstraints

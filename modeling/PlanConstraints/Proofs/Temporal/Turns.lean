import PlanConstraints.Proofs.Temporal.Products

set_option autoImplicit false

/-!
# Taking turns

The operators of the task and those of the automata take turns.  `Step` says all that an operator
can do in a situation: an operator of the task is executed in its turn, or an automaton moves in its
turn. Each operator that is applicable makes a step (`step_of_isApplicable`), and every step is made
by an operator (`Outcome.runAt?_act`, `Outcome.exists_runAt?_move`).
-/

namespace PlanConstraints

namespace Temporal

/-! ## Steps -/

/-- An automaton moves to a place, and passes the turn on to the next of `count`. -/
def Situation.move (c : Situation) (count k : Nat) (place : Place) : Situation :=
  { c with
    turn := (k + 2) % count
    places := fun j => if j = k then place else c.places j }

/-- An operator of the task is executed, and the turn passes on to the first automaton. -/
def Situation.actInTurn (c : Situation) (i : Nat) (op : Operator) : Situation :=
  { c.act i op with turn := 1 }

/-- What the operator of a number can do in a situation. -/
inductive Step (mode : Acceptance) (t : Task) (sets : ActionSets)
    (automata : List (Automaton Symbol)) (c : Situation) : Nat → Situation → Prop where
  /-- An operator of the task, in its turn. -/
  | act {i : Nat} {op : Operator} (hop : t.operators[i]? = some op)
    (happ : op.isApplicable c.state = true) (hturn : c.turn = 0) :
    Step mode t sets automata c i (c.actInTurn i op)
  /-- A transition of an automaton, in its turn. -/
  | move {i k : Nat} {a : Automaton Symbol} {place : Place} (hi : t.operators.length ≤ i)
    (ha : automata[k]? = some a) (hturn : c.turn = k + 1)
    (hmoves : Place.Moves mode a (c.observe t sets) (c.places k) place) :
    Step mode t sets automata c i (c.move (automata.length + 1) k place)

/-! ## The new task -/

/-- The variable for whose turn it is. -/
def turnVar (t : Task) (set : PropertySet) : VarId := t.vars.length + set.actionSets.sets.length

theorem turnVar_eq (t : Task) (set : PropertySet) :
    turnVar t set = t.vars.length + set.actionSets.sets.length := rfl

/-- What a compilation made, when there are automata. -/
structure Outcome (options : CompileOptions) (t : Task) (set : PropertySet)
    (automata : List (Automaton Symbol)) (product : Product) (roles : List Role) (task : Task) :
    Prop where
  consistent : t.Consistent
  built : Built options t set automata roles product
  length_vars : product.vars.length = automata.length
  pos : 0 < automata.length
  numbered : ∀ a ∈ automata, a.Numbered
  task_eq : task = product.inTurns (turnVar t set) (automata.length + 1)

/-- The operators in turns. -/
theorem mem_movesInTurn {turn : VarId} {count owner : Nat} {moves : List (List Operator)}
    {op : Operator} :
    op ∈ movesInTurn turn count owner moves ↔
      ∃ k ops own, moves[k]? = some ops ∧ own ∈ ops ∧ op = takeTurn turn count (owner + k) own := by
  induction moves generalizing owner with
  | nil => simp [movesInTurn]
  | cons ops moves ih =>
    rw [movesInTurn, List.mem_append, ih]
    constructor
    · rintro (hop | ⟨k, ops', own, hops', hown, rfl⟩)
      · obtain ⟨own, hown, rfl⟩ := List.mem_map.mp hop
        exact ⟨0, ops, own, rfl, hown, rfl⟩
      · exact ⟨k + 1, ops', own, hops', hown, by rw [Nat.add_assoc, Nat.add_comm 1 k]⟩
    · rintro ⟨k, ops', own, hops', hown, rfl⟩
      cases k with
      | zero =>
        cases hops'
        exact .inl (List.mem_map_of_mem hown)
      | succ k => exact .inr ⟨k, ops', own, hops', hown, by rw [Nat.add_assoc, Nat.add_comm 1 k]⟩

section

variable {options : CompileOptions} {t : Task} {set : PropertySet}
  {automata : List (Automaton Symbol)} {product : Product} {roles : List Role} {task : Task}
  {c : Situation}

/-- An operator of the task as it is in the new one. -/
def worldOperator (t : Task) (set : PropertySet) (roles : List Role) (op : Operator) : Operator :=
  op.extend [] (worldEffects t.vars.length op roles ++ [.assign (turnVar t set) (some 0) 1])

theorem Outcome.operators (o : Outcome options t set automata product roles task) :
    task.operators = t.operators.map (worldOperator t set roles) ++
      movesInTurn (turnVar t set) (automata.length + 1) 1 product.moves := by
  have hone : (0 + 1) % (automata.length + 1) = 1 := Nat.mod_eq_of_lt (Nat.succ_lt_succ o.pos)
  rw [o.task_eq, Product.inTurns]
  simp only [Task.operators_mapOperators, o.built.layout.operators, List.map_map]
  congr 1
  refine List.map_congr_left fun op _ => ?_
  rw [Function.comp_apply, takeTurn, hone, Operator.addEffect_eq_extend, Operator.extend_extend]
  rfl

/-- What the operators of the new task are. -/
theorem Outcome.getElem?_operators (o : Outcome options t set automata product roles task) {i : Nat}
    {op : Operator} (h : task.operators[i]? = some op) :
    (∃ own, t.operators[i]? = some own ∧ op = worldOperator t set roles own) ∨
      (t.operators.length ≤ i ∧ op ∈ movesInTurn (turnVar t set) (automata.length + 1) 1
        product.moves) := by
  rw [o.operators, List.getElem?_append] at h
  split at h
  · rw [List.getElem?_map, Option.map_eq_some_iff] at h
    obtain ⟨own, hown, rfl⟩ := h
    exact .inl ⟨own, hown, rfl⟩
  · next hge =>
    rw [List.length_map, Nat.not_lt] at hge
    exact .inr ⟨hge, List.mem_of_getElem? h⟩

/-! ## Operators of the task -/

theorem Layout.index_eq_iff {mark : String} {m : Tracked} (h : Layout mark t automata roles m)
    {i j : Nat} {role role' : Role} (hi : roles[i]? = some role) (hj : roles[j]? = some role') :
    i = j ↔ role = role' := by
  constructor
  · rintro rfl
    rw [hi] at hj
    exact Option.some.inj hj
  · rintro rfl
    exact h.eq_of_getElem? hi hj

/-- An effect on the variable of a role concerns no other role. -/
theorem Layout.filter_assign {mark : String} {m : Tracked} (h : Layout mark t automata roles m)
    {i j : Nat} {role role' : Role} (hi : roles[i]? = some role) (hj : roles[j]? = some role')
    {var : VarId} (hvar : var = t.vars.length + j) (pre : Option Nat) (post : Nat) :
    ([Effect.assign var pre post].filter fun e => e.var == t.vars.length + i) =
      if role = role' then [.assign var pre post] else [] := by
  have hiff := h.index_eq_iff hi hj
  by_cases hrole : role = role'
  · rw [if_pos hrole, hvar, hiff.mpr hrole]
    simp
  · have hne : j ≠ i := fun heq => hrole (hiff.mp heq.symm)
    rw [if_neg hrole, hvar]
    simp [hne]

theorem Outcome.isApplicable_worldOperator (o : Outcome options t set automata product roles task)
    (hlen : c.state.length = t.vars.length) {op : Operator} (hw : op.Within t.vars.length) :
    (worldOperator t set roles op).isApplicable (c.encode t roles) = true ↔
      op.isApplicable c.state = true ∧ c.turn = 0 := by
  have hturn : (⟨turnVar t set, 0⟩ : Fact).holds (c.encode t roles) = true ↔ c.turn = 0 :=
    Situation.holds_encode_iff hlen o.built.turn
  rw [worldOperator, Situation.encode, Operator.isApplicable_extend_append (hlen ▸ hw), ← hturn]
  refine and_congr_right fun _ => ⟨fun h => ?_, fun h => ⟨by simp, ?_⟩⟩
  · exact h.2 (.assign (turnVar t set) (some 0) 1) (by simp) _ rfl
  · intro e he f hf
    rcases List.mem_append.mp he with he | he
    · rw [Effect.precondition?, (mem_worldEffects he).2] at hf
      cases hf
    · cases List.mem_singleton.mp he
      cases hf
      exact h

theorem Outcome.apply_worldOperator (o : Outcome options t set automata product roles task)
    (hlen : c.state.length = t.vars.length) {i : Nat} {op : Operator}
    (hop : t.operators[i]? = some op) (hw : op.Within t.vars.length) :
    (worldOperator t set roles op).apply (c.encode t roles) =
      (c.actInTurn i op).encode t roles := by
  refine Operator.apply_extend_append (hlen ▸ hw) [] (fun e he => ?_) fun j role hrole => ?_
  · rw [hlen]
    rcases List.mem_append.mp he with he | he
    · exact (mem_worldEffects he).1
    · cases List.mem_singleton.mp he
      exact Nat.le_add_right _ _
  · rw [hlen, List.filter_append, filter_worldEffects hrole,
      o.built.layout.filter_assign hrole o.built.turn (turnVar_eq t set)]
    have hinDomain : ∀ f, role = .tracker f → f.var < c.state.length := by
      rintro f rfl
      rw [hlen]
      exact (o.built.layout.inDomain f (List.mem_of_getElem? hrole)).var_lt
    by_cases hturn : role = .turn
    · subst hturn
      simp [Role.effects, Situation.value, Situation.actInTurn]
    · rw [if_neg hturn, List.append_nil]
      refine (overwrite_effects _ hop (hlen ▸ hw) role hinDomain _).trans ?_
      cases role with
      | turn => exact absurd rfl hturn
      | _ => rfl

/-! ## Operators of automata -/

/-- The operator for a transition of an automaton, in its turn. -/
def moveOperator (options : CompileOptions) (t : Task) (set : PropertySet)
    (automata : List (Automaton Symbol)) (k : Nat) (a : Automaton Symbol) (vars : AutomatonVars)
    (tr : Transition Symbol) (source target : State Symbol) (number? : Option Nat)
    (tests : List Fact) : Operator :=
  takeTurn (turnVar t set) (automata.length + 1) (k + 1)
    ((transitionMove options.acceptance a vars tr source target).operator number? tests)

/-- The operator is one for the transition of the automaton of the number. -/
def IsOperatorOf (options : CompileOptions) (t : Task) (set : PropertySet)
    (automata : List (Automaton Symbol)) (product : Product) (k : Nat) (tr : Transition Symbol)
    (op : Operator) : Prop :=
  ∃ a vars source target number? tests, automata[k]? = some a ∧ product.vars[k]? = some vars ∧
    a.state? tr.source = some source ∧ a.state? tr.target = some target ∧
      op = moveOperator options t set automata k a vars tr source target number? tests

/-- The effect on the acceptance, if there is one. -/
def acceptingEffects (mode : Acceptance) (vars : AutomatonVars) (source target : Bool) :
    List Effect :=
  if mode.sets target then [.assign vars.accepting (some source.toNat) target.toNat] else []

theorem effects_moveOperator (k : Nat) (a : Automaton Symbol) (vars : AutomatonVars)
    (tr : Transition Symbol) (source target : State Symbol) (number? : Option Nat)
    (tests : List Fact) :
    (moveOperator options t set automata k a vars tr source target number? tests).effects =
      .assign vars.position (some source.id) target.id ::
        (acceptingEffects options.acceptance vars source.isAccepting target.isAccepting ++
          [.assign (turnVar t set) (some (k + 1)) ((k + 2) % (automata.length + 1))]) := by
  have hvalue : ∀ b : Bool, (if b = true then 1 else 0) = b.toNat := by decide
  simp only [moveOperator, takeTurn, Operator.addEffect, Move.operator, transitionMove,
    transitionEffects, hvalue]
  rfl

theorem Built.holds_position_iff (h : Built options t set automata roles product)
    (hlen : c.state.length = t.vars.length) {k : Nat} {vars : AutomatonVars}
    (hvars : product.vars[k]? = some vars) {q : Nat} :
    (⟨vars.position, q⟩ : Fact).holds (c.encode t roles) = true ↔ (c.places k).state = q := by
  obtain ⟨⟨i, hi, hposition⟩, -⟩ := h.located k vars hvars
  rw [hposition]
  exact Situation.holds_encode_iff hlen hi

theorem Built.holds_accepting_iff (h : Built options t set automata roles product)
    (hlen : c.state.length = t.vars.length) {k : Nat} {vars : AutomatonVars}
    (hvars : product.vars[k]? = some vars) {b : Bool} :
    (⟨vars.accepting, b.toNat⟩ : Fact).holds (c.encode t roles) = true ↔
      (c.places k).accepted = b := by
  obtain ⟨-, i, hi, haccepting⟩ := h.located k vars hvars
  rw [haccepting, Situation.holds_encode_iff hlen hi, Situation.value]
  cases (c.places k).accepted <;> cases b <;> simp

theorem isApplicable_moveOperator (hlen : c.state.length = t.vars.length)
    (h : Built options t set automata roles product) {k : Nat} {a : Automaton Symbol}
    {vars : AutomatonVars} (hvars : product.vars[k]? = some vars) (tr : Transition Symbol)
    (source target : State Symbol) (number? : Option Nat) (tests : List Fact) :
    (moveOperator options t set automata k a vars tr source target number? tests).isApplicable
        (c.encode t roles) = true ↔
      (∀ f ∈ tests, f.holds (c.encode t roles) = true) ∧ (c.places k).state = source.id ∧
        options.acceptance.permits (c.places k).accepted source.isAccepting
          target.isAccepting = true ∧ c.turn = k + 1 := by
  have hpos := h.holds_position_iff (c := c) (q := source.id) hlen hvars
  have hacc := h.holds_accepting_iff (c := c) (b := source.isAccepting) hlen hvars
  have hturn : (⟨turnVar t set, k + 1⟩ : Fact).holds (c.encode t roles) = true ↔ c.turn = k + 1 :=
    Situation.holds_encode_iff hlen h.turn
  have hprevail : (moveOperator options t set automata k a vars tr source target number?
      tests).prevail = tests := rfl
  rw [Operator.isApplicable, Operator.preconditions, hprevail, effects_moveOperator,
    List.all_eq_true, List.forall_mem_append, Acceptance.permits, acceptingEffects, ← hpos, ← hturn]
  refine and_congr_right fun _ => ?_
  cases hsets : options.acceptance.sets target.isAccepting with
  | true => simp [Effect.precondition?, ← hacc]
  | false => simp [Effect.precondition?]

/-- The effects of an operator of an automaton on a new variable. -/
theorem filter_effects_moveOperator (h : Built options t set automata roles product) {k : Nat}
    {a : Automaton Symbol} {vars : AutomatonVars} (hvars : product.vars[k]? = some vars)
    (tr : Transition Symbol) (source target : State Symbol) (number? : Option Nat)
    (tests : List Fact) {i : Nat} {role : Role} (hrole : roles[i]? = some role) :
    ((moveOperator options t set automata k a vars tr source target number? tests).effects.filter
        fun e => e.var == t.vars.length + i) =
      (if role = .position k then [.assign vars.position (some source.id) target.id] else []) ++
        ((if role = .accepting k then acceptingEffects options.acceptance vars source.isAccepting
            target.isAccepting else []) ++
          if role = .turn then
            [.assign (turnVar t set) (some (k + 1)) ((k + 2) % (automata.length + 1))]
          else []) := by
  obtain ⟨⟨ip, hp, hposition⟩, ia, ha, haccepting⟩ := h.located k vars hvars
  have haccept : ((acceptingEffects options.acceptance vars source.isAccepting
      target.isAccepting).filter fun e => e.var == t.vars.length + i) =
        if role = .accepting k then acceptingEffects options.acceptance vars source.isAccepting
          target.isAccepting else [] := by
    unfold acceptingEffects
    cases options.acceptance.sets target.isAccepting with
    | true => exact h.layout.filter_assign hrole ha haccepting _ _
    | false => simp
  rw [effects_moveOperator, ← List.singleton_append, List.filter_append, List.filter_append,
    h.layout.filter_assign hrole hp hposition,
    h.layout.filter_assign hrole h.turn (turnVar_eq t set), haccept]

theorem apply_moveOperator (hlen : c.state.length = t.vars.length)
    (h : Built options t set automata roles product) {k : Nat} {a : Automaton Symbol}
    {vars : AutomatonVars} (hvars : product.vars[k]? = some vars) (tr : Transition Symbol)
    (source target : State Symbol) (number? : Option Nat) (tests : List Fact) :
    (moveOperator options t set automata k a vars tr source target number? tests).apply
        (c.encode t roles) =
      (c.move (automata.length + 1) k ⟨target.id, options.acceptance.follow (c.places k).accepted
        target.isAccepting⟩).encode t roles := by
  rw [Operator.eq_extend (moveOperator options t set automata k a vars tr source target number?
    tests)]
  refine Operator.apply_extend_append (Operator.within_ofEffects_nil _ _ _) _ (fun e he => ?_)
    fun j role hrole => ?_
  · rw [hlen]
    obtain ⟨⟨ip, -, hposition⟩, ia, -, haccepting⟩ := h.located k vars hvars
    rw [effects_moveOperator, List.mem_cons, List.mem_append, List.mem_singleton,
      acceptingEffects] at he
    rcases he with rfl | he | rfl
    · rw [Effect.assign_var, hposition]
      exact Nat.le_add_right _ _
    · split at he
      · rw [List.mem_singleton.mp he, Effect.assign_var, haccepting]
        exact Nat.le_add_right _ _
      · cases he
    · exact Nat.le_add_right _ _
  · rw [hlen, filter_effects_moveOperator h hvars tr source target number? tests hrole]
    cases role with
    | used number s => rfl
    | turn => simp [Situation.value, Situation.move]
    | position k' =>
      by_cases hk : k' = k
      · simp [Situation.value, Situation.move, hk]
      · simp [Situation.value, Situation.move, hk]
    | accepting k' =>
      by_cases hk : k' = k
      · cases hsets : options.acceptance.sets target.isAccepting <;>
          simp [Situation.value, Situation.move, hk, acceptingEffects, Acceptance.follow, hsets]
      · simp [Situation.value, Situation.move, hk]
    | tracker f => rfl

/-- Every operator behind those of the task is one for a transition, and its conditions imply the
guard. -/
theorem Outcome.exists_moveOperator (o : Outcome options t set automata product roles task)
    {op : Operator}
    (hop : op ∈ movesInTurn (turnVar t set) (automata.length + 1) 1 product.moves) :
    ∃ (k : Nat) (a : Automaton Symbol) (vars : AutomatonVars) (tr : Transition Symbol)
      (source target : State Symbol) (number? : Option Nat) (tests : List Fact),
      automata[k]? = some a ∧ product.vars[k]? = some vars ∧ tr ∈ a.transitions ∧
        a.state? tr.source = some source ∧ a.state? tr.target = some target ∧
          op = moveOperator options t set automata k a vars tr source target number? tests ∧
            ∀ c : Situation, t.IsState c.state →
              (∀ f ∈ tests, f.holds (c.encode t roles) = true) → c.allows t set.actionSets tr := by
  obtain ⟨k, ops, own, hops, hown, rfl⟩ := mem_movesInTurn.mp hop
  have hk : k < product.vars.length := by
    rw [← o.built.length_moves]
    exact (List.getElem?_eq_some_iff.mp hops).1
  have hvars := List.getElem?_eq_getElem hk
  have ha := List.getElem?_eq_getElem (o.length_vars ▸ hk)
  obtain ⟨tr, htr, new, hnew, source, target, hsource, htarget, hcovers⟩ :=
    (o.built.implements k _ _ ops ha hvars hops).exhaustive own hown
  obtain ⟨number?, tests, rfl, hsound⟩ := hcovers.sound own hnew
  refine ⟨k, _, _, tr, source, target, number?, tests, ha, hvars, htr, hsource, htarget, ?_, ?_⟩
  · rw [moveOperator, Nat.add_comm 1 k]
  · intro c hc hall
    refine hsound [] c hc ?_
    rw [List.append_nil]
    exact hall

/-- A transition whose guard is true has an operator whose conditions are. -/
theorem Outcome.exists_operator_of_allows (o : Outcome options t set automata product roles task)
    {k : Nat} {a : Automaton Symbol} (ha : automata[k]? = some a) {tr : Transition Symbol}
    (htr : tr ∈ a.transitions) (hc : t.IsState c.state) (hguard : c.allows t set.actionSets tr) :
    ∃ (i : Nat) (vars : AutomatonVars) (source target : State Symbol) (number? : Option Nat)
      (tests : List Fact), t.operators.length ≤ i ∧ product.vars[k]? = some vars ∧
        a.state? tr.source = some source ∧ a.state? tr.target = some target ∧
          task.operators[i]? =
            some (moveOperator options t set automata k a vars tr source target number? tests) ∧
              ∀ f ∈ tests, f.holds (c.encode t roles) = true := by
  have hk : k < product.vars.length := by
    rw [o.length_vars]
    exact (List.getElem?_eq_some_iff.mp ha).1
  have hvars := List.getElem?_eq_getElem hk
  have hops := List.getElem?_eq_getElem (o.built.length_moves.symm ▸ hk)
  obtain ⟨new, hsub, source, target, hsource, htarget, hcovers⟩ :=
    (o.built.implements k a _ _ ha hvars hops).covers tr htr
  obtain ⟨number?, tests, hmem, hall⟩ := hcovers.complete [] c hc hguard
  rw [List.append_nil] at hall
  have hop :
      moveOperator options t set automata k a product.vars[k] tr source target number? tests ∈
        movesInTurn (turnVar t set) (automata.length + 1) 1 product.moves := by
    refine mem_movesInTurn.mpr ⟨k, _, _, hops, hsub _ hmem, ?_⟩
    rw [moveOperator, Nat.add_comm 1 k]
  obtain ⟨i, hi⟩ := List.mem_iff_getElem?.mp hop
  refine ⟨t.operators.length + i, _, source, target, number?, tests, Nat.le_add_right _ _, hvars,
    hsource, htarget, ?_, hall⟩
  rw [o.operators, List.getElem?_append_right (by simp), List.length_map, Nat.add_sub_cancel_left]
  exact hi

/-! ## Steps and operators -/

/-- The ends of a transition, as the automaton and as its operators see them. -/
theorem Outcome.ends (o : Outcome options t set automata product roles task) {k : Nat}
    {a : Automaton Symbol} (ha : automata[k]? = some a) {tr : Transition Symbol}
    {source target : State Symbol} (htr : tr ∈ a.transitions)
    (hsource : a.state? tr.source = some source) (htarget : a.state? tr.target = some target) :
    source.id = tr.source ∧ target.id = tr.target ∧ a.accepts tr.source = source.isAccepting ∧
      a.accepts tr.target = target.isAccepting := by
  obtain ⟨source', target', hsource', htarget', hsid, htid⟩ :=
    (o.numbered a (List.mem_of_getElem? ha)).exists_states htr
  rw [hsource] at hsource'
  rw [htarget] at htarget'
  cases hsource'
  cases htarget'
  refine ⟨hsid, htid, ?_, ?_⟩
  · rw [Automaton.accepts, hsource, Option.any_some]
  · rw [Automaton.accepts, htarget, Option.any_some]

/-- An operator of the new task that is applicable makes a step. -/
theorem Outcome.step_of_isApplicable (o : Outcome options t set automata product roles task)
    (hc : t.IsState c.state) {i : Nat} {op : Operator} (hop : task.operators[i]? = some op)
    (happ : op.isApplicable (c.encode t roles) = true) :
    ∃ c', Step options.acceptance t set.actionSets automata c i c' ∧
      op.apply (c.encode t roles) = c'.encode t roles := by
  have hlen := hc.length_eq
  rcases o.getElem?_operators hop with ⟨own, hown, rfl⟩ | ⟨hi, hop⟩
  · have hw := o.consistent.within (List.mem_of_getElem? hown)
    obtain ⟨happ, hturn⟩ := (o.isApplicable_worldOperator hlen hw).mp happ
    exact ⟨c.actInTurn i own, .act hown happ hturn, o.apply_worldOperator hlen hown hw⟩
  · obtain ⟨k, a, vars, tr, source, target, number?, tests, ha, hvars, htr, hsource, htarget, rfl,
      hsound⟩ := o.exists_moveOperator hop
    obtain ⟨hsid, htid, hsacc, htacc⟩ := o.ends ha htr hsource htarget
    obtain ⟨htests, hposition, hpermits, hturn⟩ :=
      (isApplicable_moveOperator hlen o.built hvars tr source target number? tests).mp happ
    refine ⟨_, .move hi ha hturn ⟨tr, htr, hsid.symm.trans hposition.symm, hsound c hc htests, ?_,
      rfl⟩, ?_⟩
    · rw [hsacc, htacc]
      exact hpermits
    · rw [htacc, ← htid]
      exact apply_moveOperator hlen o.built hvars tr source target number? tests

/-- An operator of the task is applicable in its turn, where it was applicable. -/
theorem Outcome.runAt?_act (o : Outcome options t set automata product roles task)
    (hc : t.IsState c.state) {numbers : List Nat}
    (hrun : task.runAt? numbers = some (c.encode t roles)) {i : Nat} {op : Operator}
    (hop : t.operators[i]? = some op) (happ : op.isApplicable c.state = true) (hturn : c.turn = 0) :
    task.runAt? (numbers ++ [i]) = some ((c.actInTurn i op).encode t roles) := by
  have hw := o.consistent.within (List.mem_of_getElem? hop)
  have hi : i < t.operators.length := (List.getElem?_eq_some_iff.mp hop).1
  refine Task.runAt?_concat_eq_some_iff.mpr ⟨_, worldOperator t set roles op, hrun, ?_,
    (o.isApplicable_worldOperator hc.length_eq hw).mpr ⟨happ, hturn⟩,
    o.apply_worldOperator hc.length_eq hop hw⟩
  rw [o.operators, List.getElem?_append_left (by simpa using hi), List.getElem?_map, hop]
  rfl

/-- An automaton can move in its turn. -/
theorem Outcome.exists_runAt?_move (o : Outcome options t set automata product roles task)
    (hc : t.IsState c.state) {numbers : List Nat}
    (hrun : task.runAt? numbers = some (c.encode t roles)) {k : Nat} {a : Automaton Symbol}
    (ha : automata[k]? = some a) (hturn : c.turn = k + 1) {place : Place}
    (hmoves : Place.Moves options.acceptance a (c.observe t set.actionSets) (c.places k) place) :
    ∃ i, t.operators.length ≤ i ∧ task.runAt? (numbers ++ [i]) =
      some ((c.move (automata.length + 1) k place).encode t roles) := by
  obtain ⟨tr, htr, hposition, hguard, hpermits, rfl⟩ := hmoves
  obtain ⟨i, vars, source, target, number?, tests, hi, hvars, hsource, htarget, hop, htests⟩ :=
    o.exists_operator_of_allows ha htr hc hguard
  obtain ⟨hsid, htid, hsacc, htacc⟩ := o.ends ha htr hsource htarget
  rw [hsacc, htacc] at hpermits
  refine ⟨i, hi, Task.runAt?_concat_eq_some_iff.mpr ⟨_, _, hrun, hop,
    (isApplicable_moveOperator hc.length_eq o.built hvars tr source target number? tests).mpr
      ⟨htests, hposition.symm.trans hsid.symm, hpermits, hturn⟩, ?_⟩⟩
  rw [htacc, ← htid]
  exact apply_moveOperator hc.length_eq o.built hvars tr source target number? tests

/-! ## Goals -/

/-- The goal of the new task, in a situation. -/
theorem Outcome.isGoal_encode (o : Outcome options t set automata product roles task)
    (hlen : c.state.length = t.vars.length) :
    task.isGoal (c.encode t roles) = true ↔
      t.isGoal c.state = true ∧ (options.addGoals = true →
        c.turn = 0 ∧ ∀ k < automata.length, (c.places k).accepted = true) := by
  have hgoal : task.goal = product.tracked.task.goal := by
    rw [o.task_eq]
    rfl
  have hown : (∀ f ∈ t.goal, f.holds (c.encode t roles) = true) ↔ t.isGoal c.state = true := by
    rw [Task.isGoal, List.all_eq_true]
    refine forall₂_congr fun f hf => ?_
    rw [Situation.holds_encode_of_lt hlen (o.consistent.goal f hf).var_lt]
  have hturn : (⟨turnVar t set, 0⟩ : Fact).holds (c.encode t roles) = true ↔ c.turn = 0 :=
    Situation.holds_encode_iff hlen o.built.turn
  have haccepting : (∀ f ∈ product.vars.map fun v => (⟨v.accepting, 1⟩ : Fact),
      f.holds (c.encode t roles) = true) ↔
        ∀ k < automata.length, (c.places k).accepted = true := by
    rw [List.forall_mem_map, ← o.length_vars]
    have hone : ∀ (k : Nat) v, product.vars[k]? = some v →
        ((⟨v.accepting, 1⟩ : Fact).holds (c.encode t roles) = true ↔
          (c.places k).accepted = true) := fun k v hv =>
      o.built.holds_accepting_iff (b := true) hlen hv
    constructor
    · intro hall k hk
      have hv := List.getElem?_eq_getElem hk
      exact (hone k _ hv).mp (hall _ (List.mem_of_getElem? hv))
    · intro hall v hv
      obtain ⟨k, hk⟩ := List.mem_iff_getElem?.mp hv
      exact (hone k v hk).mpr (hall k (List.getElem?_eq_some_iff.mp hk).1)
  rw [Task.isGoal, List.all_eq_true, hgoal, o.built.goal, List.append_assoc,
    List.forall_mem_append, List.forall_mem_append, hown, acceptanceGoals]
  refine and_congr_right fun _ => ?_
  cases hadd : options.addGoals with
  | false => simp
  | true =>
    rw [if_pos rfl, if_pos rfl, List.forall_mem_singleton, haccepting,
      show (⟨t.vars.length + set.actionSets.sets.length, 0⟩ : Fact) = ⟨turnVar t set, 0⟩ from rfl,
      hturn]
    exact ⟨fun h _ => h, fun h => h rfl⟩

/-! ## The compilation -/

/-- The variable for turns comes behind those for the use of sets. -/
theorem nextVar_recordingOf (t : Task) (set : PropertySet) :
    (recordingOf t set).task.nextVar = turnVar t set := by
  rw [Task.nextVar, (layout_recording "" t set []).length_vars, turnVar]
  simp [usedRoles]

/-- What a compilation of temporal properties makes if it succeeds. -/
theorem exists_product {translator : Translator} {compiled : Compiled} (hne : set.temporal ≠ [])
    (h : compileTemporal options translator t set = .ok compiled) :
    ∃ automata product, traverse (automatonOf translator) set.temporal = .ok automata ∧
      productOf options t set automata = .ok product ∧
        compiled.task = product.inTurns (turnVar t set) (automata.length + 1) ∧
          compiled.usedVars = usedVarsFrom t.vars.length set.actionSets.sets := by
  unfold compileTemporal at h
  split at h
  · cases h
  · next automata hautomata =>
    unfold compileAutomata at h
    rw [if_neg (by simpa using hne)] at h
    split at h
    · cases h
    · next product hproduct =>
      cases h
      refine ⟨automata, product, hautomata, hproduct, ?_, usedVars_recordSets _ _ _⟩
      simp only [nextVar_recordingOf, length_traverse hautomata]

/-- The outcome of a compilation in which the atoms of guards keep their meaning. -/
theorem exists_outcome {translator : Translator} (hcheck : t.check = .ok ())
    (hne : set.temporal ≠ [])
    (hautomata : traverse (automatonOf translator) set.temporal = .ok automata)
    (hproduct : productOf options t set automata = .ok product)
    (htask : task = product.inTurns (turnVar t set) (automata.length + 1))
    (hatoms : GuardsKeepMeaning options.softMark t set.actionSets automata) :
    ∃ roles, Outcome options t set automata product roles task := by
  have hc := t.check_eq_ok_iff.mp hcheck
  have hlen := length_traverse hautomata
  have hnumbered : ∀ a ∈ automata, a.Numbered := fun a ha => by
    obtain ⟨p, -, hp⟩ := mem_of_mem_traverse hautomata ha
    exact numbered_automatonOf hp
  obtain ⟨roles, hbuilt, hvars⟩ := exists_built hc hlen hnumbered hatoms hproduct
  refine ⟨roles, hc, hbuilt, hvars, ?_, hnumbered, htask⟩
  rw [hlen]
  exact List.length_pos_iff.mpr hne

end

end Temporal

end PlanConstraints

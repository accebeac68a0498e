import PlanConstraints.Proofs.Automaton.Runs
import PlanConstraints.Proofs.Compile.Recording
import PlanConstraints.Compile.Temporal

set_option autoImplicit false

/-!
# What the variables of automata stand for

The variables behind those of the task have roles: they record the use of a set, say whose turn it
is, hold the state or the acceptance of an automaton, or tell whether a fact is true.  A situation
gives each role a value, and an operator of the task has effects on the roles of the first and the
last kind.
-/

namespace PlanConstraints

namespace Temporal

/-- What a new variable stands for. -/
inductive Role where
  /-- The set, which has the number, was used. -/
  | used (number : Nat) (set : ActionSet)
  | turn
  /-- The state of the automaton of the number. -/
  | position (automaton : Nat)
  /-- The acceptance of the automaton of the number. -/
  | accepting (automaton : Nat)
  /-- The fact is true. -/
  | tracker (fact : Fact)
  deriving DecidableEq

/-- Where a run of the new task stands. -/
structure Situation where
  /-- The operators of the task executed so far. -/
  path : List Nat
  /-- The state that they lead to. -/
  state : Assignment
  turn : Nat
  /-- Where each automaton stands. -/
  places : Nat → Place

namespace Situation

variable {t : Task} {roles : List Role} {c : Situation}

/-- The value of a new variable. -/
def value (t : Task) (c : Situation) : Role → Nat
  | .used _ set => (t.uses c.path set).toNat
  | .turn => c.turn
  | .position k => (c.places k).state
  | .accepting k => (c.places k).accepted.toNat
  | .tracker f => (f.holds c.state).toNat

/-- The state of the new task. -/
def encode (t : Task) (roles : List Role) (c : Situation) : Assignment :=
  c.state ++ roles.map (c.value t)

/-- An operator of the task is executed. -/
def act (c : Situation) (i : Nat) (op : Operator) : Situation :=
  { c with path := c.path ++ [i], state := op.apply c.state }

theorem holds_encode_iff (hlen : c.state.length = t.vars.length) {i value : Nat} {role : Role}
    (hrole : roles[i]? = some role) :
    (⟨t.vars.length + i, value⟩ : Fact).holds (c.encode t roles) = true ↔
      c.value t role = value := by
  rw [encode, ← hlen, Fact.holds_append_map hrole]

/-- A fact of the task. -/
theorem holds_encode_of_lt (hlen : c.state.length = t.vars.length) {f : Fact}
    (hf : f.var < t.vars.length) : f.holds (c.encode t roles) = f.holds c.state :=
  Fact.holds_append (by rw [hlen]; exact hf) _

end Situation

/-! ## Effects of the operators of the task -/

/-- What an operator of the task does to a new variable. -/
def Role.effects (var : VarId) (op : Operator) : Role → List Effect
  | .used _ set => if op.isIn set then [.assign var none 1] else []
  | .tracker f => trackingEffects f var op
  | _ => []

/-- What an operator of the task does to new variables, the first of which has the number `var`. -/
def worldEffects (var : Nat) (op : Operator) (roles : List Role) : List Effect :=
  (roles.zipIdx var).flatMap fun (role, var) => role.effects var op

theorem mem_effects {var : VarId} {op : Operator} {role : Role} {e : Effect}
    (h : e ∈ role.effects var op) : e.var = var ∧ e.pre = none := by
  cases role with
  | used _ set =>
    rw [Role.effects] at h
    split at h
    · rw [List.mem_singleton.mp h]
      exact ⟨rfl, rfl⟩
    · cases h
  | tracker f =>
    obtain ⟨e', -, rfl⟩ := List.mem_map.mp h
    exact ⟨rfl, rfl⟩
  | turn => cases h
  | position k => cases h
  | accepting k => cases h

@[simp] theorem worldEffects_nil (var : Nat) (op : Operator) : worldEffects var op [] = [] := rfl

theorem worldEffects_cons (var : Nat) (op : Operator) (role : Role) (roles : List Role) :
    worldEffects var op (role :: roles) =
      role.effects var op ++ worldEffects (var + 1) op roles := rfl

theorem worldEffects_append (var : Nat) (op : Operator) (xs ys : List Role) :
    worldEffects var op (xs ++ ys) =
      worldEffects var op xs ++ worldEffects (var + xs.length) op ys := by
  rw [worldEffects, List.zipIdx_append, List.flatMap_append]
  rfl

/-- The effects are on new variables, and no conditions for the operator to be applicable. -/
theorem mem_worldEffects {var : Nat} {op : Operator} {roles : List Role} {e : Effect}
    (h : e ∈ worldEffects var op roles) : var ≤ e.var ∧ e.pre = none := by
  obtain ⟨⟨role, i⟩, hrole, he⟩ := List.mem_flatMap.mp h
  obtain ⟨hvar, hpre⟩ := mem_effects he
  exact ⟨hvar ▸ List.le_snd_of_mem_zipIdx hrole, hpre⟩

/-- The effects on the variable of a role are those of the role. -/
theorem filter_worldEffects {var i : Nat} {op : Operator} {roles : List Role} {role : Role}
    (h : roles[i]? = some role) :
    ((worldEffects var op roles).filter fun e => e.var == var + i) =
      role.effects (var + i) op := by
  induction roles generalizing var i with
  | nil => cases h
  | cons first roles ih =>
    rw [worldEffects_cons, List.filter_append]
    cases i with
    | zero =>
      cases h
      have hrest : ((worldEffects (var + 1) op roles).filter fun e => e.var == var + 0) = [] := by
        rw [List.filter_eq_nil_iff]
        intro e he heq
        have hle := (mem_worldEffects he).1
        rw [beq_iff_eq] at heq
        lia
      rw [hrest, List.append_nil, Nat.add_zero, List.filter_eq_self]
      intro e he
      exact beq_iff_eq.mpr (mem_effects he).1
    | succ i =>
      have hfirst : ((first.effects var op).filter fun e => e.var == var + (i + 1)) = [] := by
        rw [List.filter_eq_nil_iff]
        intro e he heq
        have hvar := (mem_effects he).1
        rw [beq_iff_eq] at heq
        lia
      rw [hfirst, List.nil_append, show var + (i + 1) = var + 1 + i by omega]
      exact ih h

/-- Recording the use of sets is the effect on their roles. -/
theorem recordEffects_eq (op : Operator) (var number : Nat) (sets : List ActionSet) :
    recordEffects op var sets =
      worldEffects var op ((sets.zipIdx number).map fun (set, j) => .used j set) := by
  induction sets generalizing var number with
  | nil => rfl
  | cons set sets ih =>
    rw [recordEffects, ih (var + 1) (number + 1), List.zipIdx_cons, List.map_cons,
      worldEffects_cons]
    rfl

/-! ## Tracking facts -/

/-- The effects on the auxiliary variable of a fact mirror those on the variable of the fact. -/
theorem overwrite_tracking (s : Assignment) (f : Fact) (tracker : VarId) (value : Nat)
    (es : List Effect) :
    Effect.overwrite s (value == f.value).toNat (es.map fun e =>
        ⟨tracker, none, if e.post = f.value then 1 else 0, e.conditions⟩) =
      (Effect.overwrite s value es == f.value).toNat := by
  induction es generalizing value with
  | nil => rfl
  | cons e es ih =>
    rw [List.map_cons, Effect.overwrite_cons, Effect.overwrite_cons, ← ih]
    congr 1
    by_cases hfires : e.fires s = true
    · have hfires' : Effect.fires s ⟨tracker, none, if e.post = f.value then 1 else 0,
          e.conditions⟩ = true := hfires
      rw [if_pos hfires, if_pos hfires']
      by_cases hpost : e.post = f.value
      · simp [hpost]
      · simp [hpost, beq_eq_false_iff_ne.mpr hpost]
    · have hfires' : ¬ Effect.fires s ⟨tracker, none, if e.post = f.value then 1 else 0,
          e.conditions⟩ = true := hfires
      rw [if_neg hfires, if_neg hfires']

/-- Further effects on new variables do not change what is tracked. -/
theorem trackingEffects_extend {f : Fact} {tracker : VarId} {op : Operator} {fs : List Fact}
    {es : List Effect} (hes : ∀ e ∈ es, e.var ≠ f.var) :
    trackingEffects f tracker (op.extend fs es) = trackingEffects f tracker op := by
  have hnone : (es.filter fun e => e.var == f.var) = [] := by
    rw [List.filter_eq_nil_iff]
    intro e he heq
    exact hes e he (beq_iff_eq.mp heq)
  rw [trackingEffects, Operator.extend, List.filter_append, hnone, List.append_nil]
  rfl

/-- An operator of the task gives every role its new value. -/
theorem overwrite_effects {t : Task} {c : Situation} (x : Assignment) {i : Nat} {op : Operator}
    (hop : t.operators[i]? = some op) (hw : op.Within c.state.length) (role : Role)
    (hrole : ∀ f, role = .tracker f → f.var < c.state.length) (var : VarId) :
    Effect.overwrite (c.state ++ x) (c.value t role) (role.effects var op) =
      (c.act i op).value t role := by
  cases role with
  | used number set =>
    simp only [Role.effects, Situation.value, Situation.act, Task.uses_concat, hop,
      Option.any_some]
    by_cases hset : op.isIn set = true <;> simp [hset]
  | turn => rfl
  | position k => rfl
  | accepting k => rfl
  | tracker f =>
    have hf := hrole f rfl
    have hvalue : c.state[f.var]? = some c.state[f.var] := List.getElem?_eq_getElem hf
    have hsame : Effect.overwrite (c.state ++ x) c.state[f.var] (op.effectsOn f.var) =
        Effect.overwrite c.state c.state[f.var] (op.effectsOn f.var) :=
      Effect.overwrite_congr fun e he g hg =>
        List.getElem?_append_left (hw.condition (Operator.mem_effectsOn.mp he).1 hg)
    have hbefore : c.value t (.tracker f) = (c.state[f.var] == f.value).toNat := by
      simp [Situation.value, Fact.holds, hvalue]
    have hafter : (c.act i op).value t (.tracker f) =
        (Effect.overwrite c.state c.state[f.var] (op.effectsOn f.var) == f.value).toNat := by
      simp [Situation.value, Situation.act, Fact.holds, Operator.getElem?_apply, hvalue]
    rw [hbefore, hafter, ← hsame]
    exact overwrite_tracking (c.state ++ x) f var c.state[f.var] (op.effectsOn f.var)

end Temporal

end PlanConstraints

import PlanConstraints.Proofs.Task.Extension

set_option autoImplicit false

/-!
# Recording the use of action sets

What `recordSets` makes of a task, in closed form: a variable for every set, and for every operator
one more effect for every set that it belongs to.
-/

namespace PlanConstraints

/-- The effects by which an operator records the sets it belongs to, when the first of the sets has
the variable `var`. -/
def recordEffects (op : Operator) (var : Nat) : List ActionSet → List Effect
  | [] => []
  | s :: sets =>
    (if op.isIn s then [.assign var none 1] else []) ++ recordEffects op (var + 1) sets

/-- The variables for the use of sets, the first of which has the number `var`. -/
def recordVariables (var : Nat) : List ActionSet → List Variable
  | [] => []
  | s :: sets => ⟨"var" ++ toString var, -1, usedValues s.name⟩ :: recordVariables (var + 1) sets

/-- The sets with their variables, the first of which has the number `var`. -/
def usedVarsFrom (var : Nat) : List ActionSet → List (String × VarId)
  | [] => []
  | s :: sets => (s.name, var) :: usedVarsFrom (var + 1) sets

/-! ## Effects -/

/-- What an operator records depends on its name only. -/
@[simp] theorem recordEffects_extend (op : Operator) (fs : List Fact) (es : List Effect)
    (var : Nat) (sets : List ActionSet) :
    recordEffects (op.extend fs es) var sets = recordEffects op var sets := by
  induction sets generalizing var with
  | nil => rfl
  | cons s sets ih => rw [recordEffects, recordEffects, ih]; rfl

theorem mem_recordEffects {op : Operator} {var : Nat} {sets : List ActionSet} {e : Effect}
    (h : e ∈ recordEffects op var sets) : ∃ j, e = .assign (var + j) none 1 := by
  induction sets generalizing var with
  | nil => simp [recordEffects] at h
  | cons s sets ih =>
    rw [recordEffects, List.mem_append] at h
    rcases h with h | h
    · split at h
      · exact ⟨0, List.mem_singleton.mp h⟩
      · simp at h
    · obtain ⟨j, rfl⟩ := ih h
      exact ⟨j + 1, by rw [Nat.add_assoc, Nat.add_comm 1 j]⟩

theorem filter_recordEffects_of_lt (op : Operator) {var v : Nat} (sets : List ActionSet)
    (hv : v < var) : ((recordEffects op var sets).filter fun e => e.var == v) = [] := by
  rw [List.filter_eq_nil_iff]
  intro e he heq
  obtain ⟨j, rfl⟩ := mem_recordEffects he
  rw [beq_iff_eq, Effect.assign_var] at heq
  lia

/-- An operator has an effect on the variable of a set exactly if it belongs to the set. -/
theorem filter_recordEffects (op : Operator) (var j : Nat) (sets : List ActionSet) :
    ((recordEffects op var sets).filter fun e => e.var == var + j) =
      if sets[j]?.any (fun s => op.isIn s) then [.assign (var + j) none 1] else [] := by
  induction sets generalizing var j with
  | nil => simp [recordEffects]
  | cons s sets ih =>
    rw [recordEffects, List.filter_append]
    cases j with
    | zero =>
      have hrest : ((recordEffects op (var + 1) sets).filter fun e => e.var == var + 0) = [] :=
        filter_recordEffects_of_lt op sets (Nat.lt_succ_self var)
      rw [hrest, List.append_nil]
      by_cases hs : op.isIn s = true <;> simp [hs]
    | succ j =>
      have hfirst : ((if op.isIn s then [Effect.assign var none 1] else []).filter
          fun e => e.var == var + (j + 1)) = [] := by
        split <;> simp
      rw [hfirst, List.nil_append, show var + (j + 1) = var + 1 + j by omega, ih]
      simp

theorem length_recordVariables (var : Nat) (sets : List ActionSet) :
    (recordVariables var sets).length = sets.length := by
  induction sets generalizing var with
  | nil => rfl
  | cons s sets ih => rw [recordVariables, List.length_cons, ih, List.length_cons]

theorem values_of_mem_recordVariables {var : Nat} {sets : List ActionSet} {v : Variable}
    (h : v ∈ recordVariables var sets) : ∃ s ∈ sets, v.values = usedValues s.name := by
  induction sets generalizing var with
  | nil => simp [recordVariables] at h
  | cons s sets ih =>
    rcases List.mem_cons.mp h with rfl | h
    · exact ⟨s, List.mem_cons_self, rfl⟩
    · obtain ⟨s', hs', hvalues⟩ := ih h
      exact ⟨s', List.mem_cons_of_mem _ hs', hvalues⟩

/-! ## Looking up a set -/

/-- The variable that is found for a name is that of the first set of the name. -/
theorem lookup_usedVarsFrom_eq_some {var : Nat} {sets : List ActionSet} {name : String} {v : Nat}
    (h : (usedVarsFrom var sets).lookup name = some v) :
    ∃ j s, v = var + j ∧ sets[j]? = some s ∧ (ActionSets.mk sets).get? name = some s := by
  induction sets generalizing var with
  | nil => simp [usedVarsFrom] at h
  | cons s sets ih =>
    by_cases hname : name = s.name
    · simp only [usedVarsFrom, List.lookup_cons, beq_iff_eq.mpr hname] at h
      cases h
      exact ⟨0, s, rfl, rfl, by simp [ActionSets.get?, hname]⟩
    · simp only [usedVarsFrom, List.lookup_cons, beq_eq_false_iff_ne.mpr hname] at h
      obtain ⟨j, s', rfl, hget, hfind⟩ := ih h
      refine ⟨j + 1, s', by omega, hget, ?_⟩
      rw [ActionSets.get?, List.find?_cons_of_neg (by simpa using Ne.symm hname)]
      exact hfind

theorem lookup_usedVarsFrom_eq_none {var : Nat} {sets : List ActionSet} {name : String}
    (h : (usedVarsFrom var sets).lookup name = none) :
    (ActionSets.mk sets).get? name = none := by
  induction sets generalizing var with
  | nil => rfl
  | cons s sets ih =>
    by_cases hname : name = s.name
    · simp only [usedVarsFrom, List.lookup_cons, beq_iff_eq.mpr hname] at h
      cases h
    · simp only [usedVarsFrom, List.lookup_cons, beq_eq_false_iff_ne.mpr hname] at h
      rw [ActionSets.get?, List.find?_cons_of_neg (by simpa using Ne.symm hname)]
      exact ih h

/-! ## The task -/

theorem length_map_take_le {α : Type} (f : α → α) (n : Nat) (l : List α) :
    ((l.take n).map f).length ≤ n := by
  rw [List.length_map, List.length_take]
  exact Nat.min_le_left _ _

theorem take_map_take_append {α : Type} (f : α → α) (n : Nat) (l : List α) :
    ((l.take n).map f ++ l.drop n).take n = (l.take n).map f := by
  by_cases h : n ≤ l.length
  · rw [List.take_append_of_le_length (by simp [h]),
      List.take_of_length_le (length_map_take_le f n l)]
  · rw [List.drop_of_length_le (l := l) (by omega), List.append_nil,
      List.take_of_length_le (length_map_take_le f n l)]

theorem drop_map_take_append {α : Type} (f : α → α) (n : Nat) (l : List α) :
    ((l.take n).map f ++ l.drop n).drop n = l.drop n := by
  by_cases h : n ≤ l.length
  · rw [List.drop_append_of_le_length (by simp [h]),
      List.drop_of_length_le (length_map_take_le f n l), List.nil_append]
  · rw [List.drop_of_length_le (l := l) (by omega), List.append_nil,
      List.drop_of_length_le (length_map_take_le f n l)]

/-- The first `count` operators with the effects by which they record the sets, when the first set
has the variable `var`. -/
def recordAll (count var : Nat) (sets : List ActionSet) (ops : List Operator) : List Operator :=
  (ops.take count).map (fun op => op.extend [] (recordEffects op var sets)) ++ ops.drop count

theorem recordAll_recordAll (count var : Nat) (s : ActionSet) (sets : List ActionSet)
    (ops : List Operator) :
    recordAll count (var + 1) sets ((ops.take count).map (Operator.record s var) ++
        ops.drop count) =
      recordAll count var (s :: sets) ops := by
  rw [recordAll, recordAll, take_map_take_append, drop_map_take_append, List.map_map]
  congr 1
  apply List.map_congr_left
  intro op _
  by_cases hs : op.isIn s = true
  · simp [Operator.record, hs, recordEffects, Operator.addEffect_eq_extend]
  · simp [Operator.record, hs, recordEffects]

/-- What recording some sets makes of a task. -/
theorem foldl_recordingAdd (count : Nat) (r : Recording) (sets : List ActionSet) :
    let r' := sets.foldl (Recording.add count) r
    r'.usedVars = r.usedVars ++ usedVarsFrom r.task.nextVar sets ∧
      r'.task = { r.task with
        vars := r.task.vars ++ recordVariables r.task.nextVar sets
        init := r.task.init ++ List.replicate sets.length 0
        operators := recordAll count r.task.nextVar sets r.task.operators } := by
  induction sets generalizing r with
  | nil => simp [usedVarsFrom, recordVariables, recordAll, recordEffects]
  | cons s sets ih =>
    obtain ⟨hused, htask⟩ := ih (Recording.add count r s)
    have hnext : (Recording.add count r s).task.nextVar = r.task.nextVar + 1 := by
      simp [Recording.add, Task.addStateVariable, Task.addVariable, Task.addInit, Task.nextVar]
    rw [hnext] at hused htask
    refine ⟨?_, ?_⟩
    · rw [List.foldl_cons, hused, usedVarsFrom]
      simp [Recording.add]
    · rw [List.foldl_cons, htask, ← recordAll_recordAll]
      simp [Recording.add, Task.addStateVariable, Task.addVariable, Task.addInit, recordVariables,
        List.replicate_succ]

theorem usedVars_recordSets (t : Task) (count : Nat) (sets : ActionSets) :
    (recordSets t count sets).usedVars = usedVarsFrom t.nextVar sets.sets := by
  simpa [recordSets] using (foldl_recordingAdd count ⟨t, [], []⟩ sets.sets).1

theorem task_recordSets (t : Task) (count : Nat) (sets : ActionSets) :
    (recordSets t count sets).task = { t with
      vars := t.vars ++ recordVariables t.nextVar sets.sets
      init := t.init ++ List.replicate sets.sets.length 0
      operators := recordAll count t.nextVar sets.sets t.operators } :=
  (foldl_recordingAdd count ⟨t, [], []⟩ sets.sets).2

end PlanConstraints

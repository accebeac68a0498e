import PlanConstraints.Proofs.Temporal.Roles

set_option autoImplicit false

/-!
# Adding variables with roles

While automata are compiled, the task is the original one with variables for a list of roles
(`Layout`), and the list only grows.  Literals of guards add variables that track facts
(`Layout.track`); all other variables are added with `Layout.addVariable`.
-/

namespace PlanConstraints

theorem getElem?_concat_eq_some_iff {α : Type} {l : List α} {a b : α} {i : Nat} :
    (l ++ [a])[i]? = some b ↔ l[i]? = some b ∨ (i = l.length ∧ a = b) := by
  rw [List.getElem?_append]
  rcases Nat.lt_trichotomy i l.length with hi | hi | hi
  · simp [hi, Nat.ne_of_lt hi]
  · simp [hi]
  · have hsub : i - l.length ≠ 0 := by omega
    simp [Nat.not_lt_of_gt hi, Nat.ne_of_gt hi, hsub]

namespace Temporal

/-- The mark of soft goals is not one of facts, so that no value becomes a fact by it.  The usual
mark is plain. -/
def IsPlainMark (mark : String) : Prop := ¬ factMark.toList <+: mark.toList

instance (mark : String) : Decidable (IsPlainMark mark) :=
  inferInstanceAs (Decidable (¬ factMark.toList <+: mark.toList))

/-- Where the new task starts. -/
def start (t : Task) (automata : List (Automaton Symbol)) : Situation :=
  ⟨[], t.init, 0, fun k => (automata[k]?.map Automaton.start).getD ⟨0, false⟩⟩

/-- The task with variables for roles, and effects of its operators on them. -/
structure Layout (mark : String) (t : Task) (automata : List (Automaton Symbol))
    (roles : List Role) (m : Tracked) : Prop where
  /-- The new variables have no values that are facts, unless the mark makes them facts. -/
  vars : ∃ more, m.task.vars = t.vars ++ more ∧ more.length = roles.length ∧
    (IsPlainMark mark → ∀ v ∈ more, ∀ value ∈ v.values, factOfValue? value = none)
  init : m.task.init = (start t automata).encode t roles
  operators : m.task.operators =
    t.operators.map fun op => op.extend [] (worldEffects t.vars.length op roles)
  mem_trackers : ∀ f v, (f, v) ∈ m.trackers ↔
    ∃ i, roles[i]? = some (.tracker f) ∧ v = t.vars.length + i
  nodup : roles.Nodup
  inDomain : ∀ f, Role.tracker f ∈ roles → t.InDomain f

namespace Layout

variable {mark : String} {t : Task} {automata : List (Automaton Symbol)} {roles : List Role}
  {m : Tracked}

theorem length_vars (h : Layout mark t automata roles m) :
    m.task.vars.length = t.vars.length + roles.length := by
  obtain ⟨more, hvars, hlen, -⟩ := h.vars
  rw [hvars, List.length_append, hlen]

/-- Facts keep their meaning, and there are no others if the mark is plain. -/
theorem findFact? (h : Layout mark t automata roles m) {name : String}
    (hname : IsPlainMark mark ∨ t.findFact? name ≠ none) :
    m.task.findFact? name = t.findFact? name := by
  obtain ⟨more, hvars, -, hmore⟩ := h.vars
  rw [Task.findFact?, Task.findFact?, hvars, Task.findFactFrom_append]
  rcases hname with hplain | hknown
  · rw [Task.findFactFrom_eq_none _ (hmore hplain)]
    simp
  · obtain ⟨f, hf⟩ := Option.ne_none_iff_exists'.mp hknown
    rw [Task.findFact?] at hf
    rw [hf]
    rfl

/-- The variables of the task are as they were. -/
theorem getElem?_vars (h : Layout mark t automata roles m) {v : Nat} (hv : v < t.vars.length) :
    m.task.vars[v]? = t.vars[v]? := by
  obtain ⟨more, hvars, -, -⟩ := h.vars
  rw [hvars, List.getElem?_append_left hv]

/-- A role stands at one place only. -/
theorem eq_of_getElem? (h : Layout mark t automata roles m) {i j : Nat} {role : Role}
    (hi : roles[i]? = some role) (hj : roles[j]? = some role) : i = j := by
  have hlt := (List.getElem?_eq_some_iff.mp hi).1
  exact (List.getElem?_inj hlt h.nodup).mp (hi.trans hj.symm)

/-- The initial state with one more variable. -/
theorem init_concat (h : Layout mark t automata roles m) (values : List String) {role : Role}
    {init : Nat} (hinit : init = (start t automata).value t role) :
    (m.task.addStateVariable values init).init =
      (start t automata).encode t (roles ++ [role]) := by
  rw [Task.init_addStateVariable, h.init, Situation.encode, Situation.encode, List.map_append,
    List.map_singleton, hinit, List.append_assoc]

theorem vars_concat (h : Layout mark t automata roles m) {values : List String} (role : Role)
    (init : Nat) (hvalues : IsPlainMark mark → ∀ value ∈ values, factOfValue? value = none) :
    ∃ more, (m.task.addStateVariable values init).vars = t.vars ++ more ∧
      more.length = (roles ++ [role]).length ∧
        (IsPlainMark mark → ∀ v ∈ more, ∀ value ∈ v.values, factOfValue? value = none) := by
  obtain ⟨more, hvars, hlen, hmore⟩ := h.vars
  refine ⟨more ++ [⟨"var" ++ toString m.task.nextVar, -1, values⟩], ?_, by simp [hlen], ?_⟩
  · rw [Task.vars_addStateVariable, hvars, List.append_assoc]
  · intro hplain v hv
    rcases List.mem_append.mp hv with hv | hv
    · exact hmore hplain v hv
    · rw [List.mem_singleton.mp hv]
      exact hvalues hplain

theorem nodup_concat (h : Layout mark t automata roles m) {role : Role} (hrole : role ∉ roles) :
    (roles ++ [role]).Nodup := by
  rw [List.nodup_append]
  refine ⟨h.nodup, by simp, fun r hr r' hr' => ?_⟩
  rintro rfl
  exact hrole (List.mem_singleton.mp hr' ▸ hr)

/-- A variable is added on which the operators of the task have no effect. -/
theorem addVariable (h : Layout mark t automata roles m) {values : List String} {role : Role}
    {init : Nat} (hvalues : IsPlainMark mark → ∀ value ∈ values, factOfValue? value = none)
    (hrole : role ∉ roles) (hinit : init = (start t automata).value t role)
    (htracker : ∀ f, role ≠ .tracker f) (heffects : ∀ var op, role.effects var op = []) :
    Layout mark t automata (roles ++ [role]) ⟨m.task.addStateVariable values init, m.trackers⟩ where
  vars := h.vars_concat role init hvalues
  init := h.init_concat values hinit
  operators := by
    rw [Task.operators_addStateVariable, h.operators]
    refine List.map_congr_left fun op _ => ?_
    rw [worldEffects_append, worldEffects_cons, heffects, worldEffects_nil, List.append_nil,
      List.append_nil]
  mem_trackers := fun f v => by
    rw [h.mem_trackers]
    refine exists_congr fun i => and_congr_left fun _ => ?_
    rw [getElem?_concat_eq_some_iff]
    exact (or_iff_left fun hlast => htracker f hlast.2).symm
  nodup := h.nodup_concat hrole
  inDomain := fun f hf => by
    rcases List.mem_append.mp hf with hf | hf
    · exact h.inDomain f hf
    · exact absurd (List.mem_singleton.mp hf).symm (htracker f)

/-- Goals do not matter. -/
theorem congr {m' : Tracked} (h : Layout mark t automata roles m)
    (hvars : m'.task.vars = m.task.vars) (hinit : m'.task.init = m.task.init)
    (hops : m'.task.operators = m.task.operators) (htrackers : m'.trackers = m.trackers) :
    Layout mark t automata roles m' where
  vars := hvars ▸ h.vars
  init := hinit.trans h.init
  operators := hops.trans h.operators
  mem_trackers := htrackers ▸ h.mem_trackers
  nodup := h.nodup
  inDomain := h.inDomain

/-- A variable is added that tracks a fact. -/
theorem addTracker (h : Layout mark t automata roles m) (hinit : t.init.length = t.vars.length)
    {f : Fact} (hf : t.InDomain f) (hrole : Role.tracker f ∉ roles) (atom : String) :
    Layout mark t automata (roles ++ [.tracker f])
      ⟨(m.task.addStateVariable ["false_aux_" ++ atom, "true_aux_" ++ atom]
          (if f.holds m.task.init then 1 else 0)).mapOperators fun op =>
            { op with effects := op.effects ++ trackingEffects f m.task.nextVar op },
        m.trackers ++ [(f, m.task.nextVar)]⟩ where
  vars := by
    have hvalues : ∀ value ∈ ["false_aux_" ++ atom, "true_aux_" ++ atom],
        factOfValue? value = none := by
      simp [factOfValue?, factMark]
    exact h.vars_concat (.tracker f) (if f.holds m.task.init then 1 else 0) fun _ => hvalues
  init := by
    refine h.init_concat _ ?_
    have hholds : f.holds m.task.init = f.holds t.init := by
      rw [h.init]
      exact Situation.holds_encode_of_lt hinit hf.var_lt
    rw [hholds, Situation.value, start]
    cases f.holds t.init <;> rfl
  operators := by
    rw [Task.operators_mapOperators, Task.operators_addStateVariable, h.operators, List.map_map]
    refine List.map_congr_left fun op _ => ?_
    have hlt := hf.var_lt
    have hes : ∀ e ∈ worldEffects t.vars.length op roles, e.var ≠ f.var := fun e he => by
      have hle := (mem_worldEffects he).1
      lia
    have hnext : m.task.nextVar = t.vars.length + roles.length := h.length_vars
    rw [Function.comp_apply, trackingEffects_extend hes, worldEffects_append, worldEffects_cons,
      worldEffects_nil, List.append_nil, hnext]
    simp [Operator.extend, Role.effects]
  mem_trackers := fun g v => by
    have hnext : m.task.nextVar = t.vars.length + roles.length := h.length_vars
    simp only [List.mem_append, h.mem_trackers, List.mem_singleton, Prod.mk.injEq, hnext,
      getElem?_concat_eq_some_iff, Role.tracker.injEq]
    constructor
    · rintro (⟨i, hi, rfl⟩ | ⟨rfl, rfl⟩)
      · exact ⟨i, .inl hi, rfl⟩
      · exact ⟨roles.length, .inr ⟨rfl, rfl⟩, rfl⟩
    · rintro ⟨i, hi | ⟨rfl, rfl⟩, rfl⟩
      · exact .inl ⟨i, hi, rfl⟩
      · exact .inr ⟨rfl, rfl⟩
  nodup := h.nodup_concat hrole
  inDomain := fun g hg => by
    rcases List.mem_append.mp hg with hg | hg
    · exact h.inDomain g hg
    · cases List.mem_singleton.mp hg
      exact hf

end Layout

/-! ## Growing -/

/-- More facts are tracked. -/
def Grows (roles roles' : List Role) : Prop := ∃ fs : List Fact, roles' = roles ++ fs.map .tracker

theorem Grows.refl (roles : List Role) : Grows roles roles := ⟨[], (List.append_nil roles).symm⟩

theorem Grows.trans {roles roles' roles'' : List Role} (h : Grows roles roles')
    (h' : Grows roles' roles'') : Grows roles roles'' := by
  obtain ⟨fs, rfl⟩ := h
  obtain ⟨gs, rfl⟩ := h'
  exact ⟨fs ++ gs, by rw [List.map_append, List.append_assoc]⟩

theorem Grows.isPrefix {roles roles' : List Role} (h : Grows roles roles') : roles <+: roles' := by
  obtain ⟨fs, rfl⟩ := h
  exact List.prefix_append roles _

/-- The task is laid out for more roles than before, and has the same goal. -/
structure Extends (mark : String) (t : Task) (automata : List (Automaton Symbol))
    (roles : List Role) (m : Tracked) (roles' : List Role) (m' : Tracked) : Prop where
  grows : Grows roles roles'
  layout : Layout mark t automata roles' m'
  goal : m'.task.goal = m.task.goal

section

variable {mark : String} {t : Task} {automata : List (Automaton Symbol)}
  {roles roles' roles'' : List Role} {m m' m'' : Tracked}

theorem Layout.extends (h : Layout mark t automata roles m) :
    Extends mark t automata roles m roles m :=
  ⟨.refl roles, h, rfl⟩

theorem Extends.trans (h : Extends mark t automata roles m roles' m')
    (h' : Extends mark t automata roles' m' roles'' m'') :
    Extends mark t automata roles m roles'' m'' :=
  ⟨h.grows.trans h'.grows, h'.layout, h'.goal.trans h.goal⟩

/-- Tracking a fact gives the variable of its role. -/
theorem Layout.track (h : Layout mark t automata roles m) (hinit : t.init.length = t.vars.length)
    {f : Fact} (hf : t.InDomain f) (atom : String) :
    ∃ roles' i, Extends mark t automata roles m roles' (m.track f atom).1 ∧
      roles'[i]? = some (.tracker f) ∧ (m.track f atom).2 = t.vars.length + i := by
  unfold Tracked.track
  cases hlookup : m.trackers.lookup f with
  | some var =>
    have hmem : (f, var) ∈ m.trackers := mem_of_lookup_eq_some hlookup
    obtain ⟨i, hi, rfl⟩ := (h.mem_trackers f var).mp hmem
    exact ⟨roles, i, h.extends, hi, rfl⟩
  | none =>
    have hrole : Role.tracker f ∉ roles := by
      intro hmem
      obtain ⟨i, hi⟩ := List.mem_iff_getElem?.mp hmem
      have hpair := (h.mem_trackers f _).mpr ⟨i, hi, rfl⟩
      have hne := List.lookup_eq_none_iff.mp hlookup _ hpair
      simp at hne
    exact ⟨roles ++ [.tracker f], roles.length,
      ⟨⟨[f], rfl⟩, h.addTracker hinit hf hrole atom, rfl⟩, by simp, h.length_vars⟩

end

end Temporal

end PlanConstraints

import PlanConstraints.Proofs.Automaton.Numbering
import PlanConstraints.Proofs.Task.FactNames
import PlanConstraints.Proofs.Temporal.Guards

set_option autoImplicit false

/-!
# Automata in the task

What the compilation of automata makes of the task before turns are taken: variables for the state
and the acceptance of each automaton, a goal for its acceptance if goals are added, and operators
for its transitions (`Built`).
-/

namespace PlanConstraints

namespace Temporal

/-! ## Names of values -/

theorem factOfValue?_usedValues (set : String) :
    ∀ value ∈ usedValues set, factOfValue? value = none := by
  simp [usedValues, factOfValue?, factMark]

theorem factOfValue?_turnValues (automata : List (Automaton Symbol)) :
    ∀ value ∈ turnValues automata, factOfValue? value = none := by
  simp [turnValues, factOfValue?, factMark]

theorem factOfValue?_positionValues (a : Automaton Symbol) :
    ∀ value ∈ positionValues a, factOfValue? value = none := by
  intro value hvalue
  unfold positionValues at hvalue
  split at hvalue
  · simp only [List.mem_cons, List.not_mem_nil, or_false] at hvalue
    rcases hvalue with rfl | rfl <;> simp [factOfValue?, factMark]
  · obtain ⟨s, -, rfl⟩ := List.mem_map.mp hvalue
    simp [factOfValue?, factMark]

/-- The mark of soft goals does not make a fact of a value, unless it is one of facts itself. -/
theorem factOfValue?_acceptingValues {mark : String} (hmark : IsPlainMark mark)
    (soft : Bool) (name : String) :
    ∀ value ∈ acceptingValues mark soft name, factOfValue? value = none := by
  have haccepting : StartsPlain ("accepting(" ++ (name ++ ")")) :=
    startsPlain_append (by decide) (by decide) _
  refine List.forall_mem_cons.mpr ⟨by simp [factOfValue?, factMark],
    List.forall_mem_singleton.mpr ?_⟩
  rw [String.append_assoc, String.append_assoc]
  cases soft with
  | false => exact haccepting.factOfValue?_append (show ¬ factMark.toList <+: "".toList by decide)
  | true => exact haccepting.factOfValue?_append hmark

section

variable {t : Task} {sets : ActionSets} {automata : List (Automaton Symbol)}
  {roles roles' : List Role} {m m' : Tracked} {s : Scope} {a : Automaton Symbol}
  {vars : AutomatonVars}

/-! ## The operators of an automaton -/

/-- The operators cover the guard of the transition. -/
def TransitionOperators (t : Task) (sets : ActionSets) (roles : List Role) (mode : Acceptance)
    (a : Automaton Symbol) (vars : AutomatonVars) (tr : Transition Symbol) (ops : List Operator) :
    Prop :=
  ∃ source target, a.state? tr.source = some source ∧ a.state? tr.target = some target ∧
    Covers t roles (transitionMove mode a vars tr source target) ops fun c => c.allows t sets tr

/-- The operators are those of the transitions. -/
structure Implements (t : Task) (sets : ActionSets) (roles : List Role) (mode : Acceptance)
    (a : Automaton Symbol) (vars : AutomatonVars) (trs : List (Transition Symbol))
    (ops : List Operator) : Prop where
  covers : ∀ tr ∈ trs, ∃ new, (∀ op ∈ new, op ∈ ops) ∧
    TransitionOperators t sets roles mode a vars tr new
  exhaustive : ∀ op ∈ ops, ∃ tr ∈ trs, ∃ new, op ∈ new ∧
    TransitionOperators t sets roles mode a vars tr new

theorem TransitionOperators.mono {mode : Acceptance} {tr : Transition Symbol}
    {ops : List Operator} (h : TransitionOperators t sets roles mode a vars tr ops)
    (hfront : roles <+: roles') : TransitionOperators t sets roles' mode a vars tr ops := by
  obtain ⟨source, target, hsource, htarget, hcovers⟩ := h
  exact ⟨source, target, hsource, htarget, hcovers.mono hfront⟩

theorem Implements.mono {mode : Acceptance} {trs : List (Transition Symbol)} {ops : List Operator}
    (h : Implements t sets roles mode a vars trs ops) (hfront : roles <+: roles') :
    Implements t sets roles' mode a vars trs ops := by
  refine ⟨fun tr htr => ?_, fun op hop => ?_⟩
  · obtain ⟨new, hsub, hnew⟩ := h.covers tr htr
    exact ⟨new, hsub, hnew.mono hfront⟩
  · obtain ⟨tr, htr, new, hmem, hnew⟩ := h.exhaustive op hop
    exact ⟨tr, htr, new, hmem, hnew.mono hfront⟩

theorem Implements.concat {mode : Acceptance} {trs : List (Transition Symbol)}
    {tr : Transition Symbol} {ops new : List Operator}
    (h : Implements t sets roles mode a vars trs ops)
    (hnew : TransitionOperators t sets roles mode a vars tr new) :
    Implements t sets roles mode a vars (trs ++ [tr]) (ops ++ new) := by
  refine ⟨fun tr' htr' => ?_, fun op hop => ?_⟩
  · rcases List.mem_append.mp htr' with htr' | htr'
    · obtain ⟨new', hsub, hnew'⟩ := h.covers tr' htr'
      exact ⟨new', fun op hop => List.mem_append_left _ (hsub op hop), hnew'⟩
    · cases List.mem_singleton.mp htr'
      exact ⟨new, fun op hop => List.mem_append_right _ hop, hnew⟩
  · rcases List.mem_append.mp hop with hop | hop
    · obtain ⟨tr', htr', new', hmem, hnew'⟩ := h.exhaustive op hop
      exact ⟨tr', List.mem_append_left _ htr', new', hmem, hnew'⟩
    · exact ⟨tr, List.mem_append_right _ (List.mem_singleton_self tr), new, hop, hnew⟩

/-- The operators for the transitions of a numbered automaton. -/
theorem Prepared.foldSteps_addTransition (h : Prepared t sets automata s roles m)
    (ha : a.Numbered)
    (hatoms : ∀ tr ∈ a.transitions, ∀ x ∈ tr.guard.atoms,
      KeepsMeaning s.options.softMark t sets x) {ops : List Operator}
    (hfold : foldSteps (s.addTransition a vars) (m, []) a.transitions = .ok (m', ops)) :
    ∃ roles', Extends s.options.softMark t automata roles m roles' m' ∧
      Implements t sets roles' s.options.acceptance a vars a.transitions ops := by
  refine foldSteps_induction (fun seen state => ∃ roles',
    Extends s.options.softMark t automata roles m roles' state.1 ∧
      Implements t sets roles' s.options.acceptance a vars seen state.2) hfold
    ⟨roles, h.layout.extends, by simp, by simp⟩ ?_
  rintro seen tr ⟨m₁, ops₁⟩ ⟨m₂, ops₂⟩ hfront ⟨roles₁, hextends, himpl⟩ hstep
  have htr : tr ∈ a.transitions := mem_of_prefix_concat hfront
  obtain ⟨source, target, hsource, htarget, -, -⟩ := ha.exists_states htr
  obtain ⟨roles₂, new, hextends', rfl, hcovers⟩ :=
    (h.extends hextends).addTransition hsource htarget (hatoms tr htr) hstep
  exact ⟨roles₂, hextends.trans hextends',
    (himpl.mono hextends'.grows.isPrefix).concat ⟨source, target, hsource, htarget, hcovers⟩⟩

/-! ## The variables of an automaton -/

/-- The goal that an automaton adds. -/
def acceptanceGoals (options : CompileOptions) (vars : List AutomatonVars) : List Fact :=
  if options.addGoals then vars.map fun v => ⟨v.accepting, 1⟩ else []

/-- The variables of the automaton of the number have its roles. -/
structure Located (t : Task) (roles : List Role) (k : Nat) (v : AutomatonVars) : Prop where
  position : ∃ i, roles[i]? = some (.position k) ∧ v.position = t.vars.length + i
  accepting : ∃ i, roles[i]? = some (.accepting k) ∧ v.accepting = t.vars.length + i

theorem Located.mono {k : Nat} {v : AutomatonVars} (h : Located t roles k v)
    (hfront : roles <+: roles') : Located t roles' k v := by
  obtain ⟨⟨i, hi, hposition⟩, j, hj, haccepting⟩ := h
  exact ⟨⟨i, getElem?_of_prefix hfront hi, hposition⟩, j, getElem?_of_prefix hfront hj, haccepting⟩

/-- The variable of acceptance starts as the initial state says. -/
theorem value_accepting_start (t : Task) {k : Nat} (ha : automata[k]? = some a) :
    (match a.state? a.initial with
      | some s => if s.isAccepting then 1 else 0
      | none => 0) = (start t automata).value t (.accepting k) := by
  have hplaces : (start t automata).places k = a.start := by simp [start, ha]
  rw [Situation.value, hplaces, Automaton.start, Automaton.accepts]
  cases a.state? a.initial with
  | none => rfl
  | some s => cases hs : s.isAccepting <;> simp [hs]

/-- Adding the variables of an automaton that has no roles yet. -/
theorem Layout.addAutomaton {options : CompileOptions}
    (h : Layout options.softMark t automata roles m) {k : Nat} (ha : automata[k]? = some a)
    (hposition : Role.position k ∉ roles) (haccepting : Role.accepting k ∉ roles) (soft : Bool) :
    let added := addAutomaton options soft m.task a
    Layout options.softMark t automata (roles ++ [.position k, .accepting k])
        ⟨added.1, m.trackers⟩ ∧
      Located t (roles ++ [.position k, .accepting k]) k added.2 ∧
        added.1.goal = m.task.goal ++ acceptanceGoals options [added.2] := by
  have hplaces : (start t automata).places k = a.start := by simp [start, ha]
  have hnext : m.task.nextVar = t.vars.length + roles.length := h.length_vars
  have hstate : a.initial = (start t automata).value t (.position k) := by
    rw [Situation.value, hplaces]
    rfl
  have hfirst := h.addVariable (fun _ => factOfValue?_positionValues a) hposition hstate
    (fun _ => by simp) fun _ _ => rfl
  have haccepting' : Role.accepting k ∉ roles ++ [.position k] := by simp [haccepting]
  have hsecond := hfirst.addVariable
    (fun hmark => factOfValue?_acceptingValues hmark soft a.name) haccepting'
    (value_accepting_start t ha) (fun _ => by simp) fun _ _ => rfl
  rw [List.append_assoc] at hsecond
  unfold PlanConstraints.addAutomaton
  refine ⟨?_, ⟨⟨roles.length, ?_, hnext⟩, roles.length + 1, ?_, ?_⟩, ?_⟩
  · cases options.addGoals <;> exact hsecond.congr rfl rfl rfl rfl
  · simp
  · simp
  · exact hfirst.length_vars.trans (by simp)
  · cases hadd : options.addGoals <;> simp [acceptanceGoals, hadd]

end

/-! ## All automata -/

/-- What the compilation of some automata makes of a task. -/
structure Built (options : CompileOptions) (t : Task) (set : PropertySet)
    (automata : List (Automaton Symbol)) (roles : List Role) (product : Product) : Prop where
  layout : Layout options.softMark t automata roles product.tracked
  used : usedRoles set.actionSets <+: roles
  turn : roles[set.actionSets.sets.length]? = some .turn
  goal : product.tracked.task.goal = t.goal
    ++ (if options.addGoals then [⟨t.vars.length + set.actionSets.sets.length, 0⟩] else [])
    ++ acceptanceGoals options product.vars
  length_moves : product.moves.length = product.vars.length
  located : ∀ k v, product.vars[k]? = some v → Located t roles k v
  fresh : ∀ k, product.vars.length ≤ k → Role.position k ∉ roles ∧ Role.accepting k ∉ roles
  implements : ∀ (k : Nat) a v ops, automata[k]? = some a → product.vars[k]? = some v →
    product.moves[k]? = some ops →
      Implements t set.actionSets roles options.acceptance a v a.transitions ops

section

variable {options : CompileOptions} {t : Task} {set : PropertySet}
  {automata : List (Automaton Symbol)} {roles : List Role} {product product' : Product}

theorem acceptanceGoals_append (options : CompileOptions) (xs ys : List AutomatonVars) :
    acceptanceGoals options (xs ++ ys) =
      acceptanceGoals options xs ++ acceptanceGoals options ys := by
  unfold acceptanceGoals
  split <;> simp

theorem nodup_usedRoles (sets : ActionSets) : (usedRoles sets).Nodup := by
  have hnumbers : sets.sets.zipIdx.Pairwise fun x y => x.2 ≠ y.2 := by
    rw [← List.pairwise_map, List.zipIdx_map_snd]
    exact List.nodup_range'
  refine List.pairwise_map.mpr (hnumbers.imp fun hne heq => hne ?_)
  injection heq

/-- The task in which the use of sets is recorded. -/
theorem layout_recording (mark : String) (t : Task) (set : PropertySet)
    (automata : List (Automaton Symbol)) :
    Layout mark t automata (usedRoles set.actionSets) ⟨(recordingOf t set).task, []⟩ := by
  have htracker : ∀ f, Role.tracker f ∉ usedRoles set.actionSets := by simp [usedRoles]
  rw [recordingOf, task_recordSets]
  refine ⟨⟨_, rfl, by simp [length_recordVariables, usedRoles], ?_⟩, ?_, ?_, ?_,
    nodup_usedRoles _, ?_⟩
  · intro _ v hv
    obtain ⟨s, -, hvalues⟩ := values_of_mem_recordVariables hv
    rw [hvalues]
    exact factOfValue?_usedValues s.name
  · rw [Situation.encode, usedRoles, List.map_map]
    refine congrArg _ (List.eq_replicate_iff.mpr ⟨by simp, fun value hvalue => ?_⟩).symm
    obtain ⟨⟨s, j⟩, -, rfl⟩ := List.mem_map.mp hvalue
    rfl
  · rw [recordAll, List.take_length, List.drop_length, List.append_nil]
    exact List.map_congr_left fun op _ => congrArg _ (recordEffects_eq op _ 0 _)
  · intro f v
    constructor
    · intro h
      cases h
    · rintro ⟨i, hi, -⟩
      exact absurd (List.mem_of_getElem? hi) (htracker f)
  · intro f hf
    exact absurd hf (htracker f)

/-- The task in which only the use of sets and the turns have variables. -/
theorem built_start (options : CompileOptions) (t : Task) (set : PropertySet)
    (automata : List (Automaton Symbol)) :
    Built options t set automata (usedRoles set.actionSets ++ [.turn])
      ⟨⟨addTurns options (recordingOf t set).task automata, []⟩, [], []⟩ := by
  have hrecording := layout_recording options.softMark t set automata
  have hturn : Role.turn ∉ usedRoles set.actionSets := by simp [usedRoles]
  have hzero : 0 = (start t automata).value t .turn := rfl
  have hlayout := hrecording.addVariable (fun _ => factOfValue?_turnValues automata) hturn hzero
    (fun _ => by simp) fun _ _ => rfl
  have hnext : (recordingOf t set).task.nextVar = t.vars.length + set.actionSets.sets.length := by
    rw [Task.nextVar, hrecording.length_vars]
    simp [usedRoles]
  refine ⟨?_, List.prefix_append _ _, by simp [usedRoles], ?_, rfl, by simp, by simp [usedRoles],
    by simp⟩
  · unfold addTurns
    cases options.addGoals <;> exact hlayout.congr rfl rfl rfl rfl
  · have hgoal : (recordingOf t set).task.goal = t.goal := by
      rw [recordingOf, task_recordSets]
    rw [← hnext]
    cases hadd : options.addGoals <;> simp [addTurns, hadd, hgoal, acceptanceGoals]

/-- Adding an automaton. -/
theorem Built.add (hc : t.Consistent) (h : Built options t set automata roles product)
    {p : Property} {a : Automaton Symbol} (ha : automata[product.vars.length]? = some a)
    (hnumbered : a.Numbered)
    (hatoms : ∀ tr ∈ a.transitions, ∀ x ∈ tr.guard.atoms,
      KeepsMeaning options.softMark t set.actionSets x)
    (hstep : Product.add options (usedVarsFrom t.vars.length set.actionSets.sets) product (p, a) =
      .ok product') :
    ∃ roles', Built options t set automata roles' product' ∧
      product'.vars.length = product.vars.length + 1 := by
  obtain ⟨hposition, haccepting⟩ := h.fresh product.vars.length (Nat.le_refl _)
  obtain ⟨hlayout, hlocated, hgoal⟩ :=
    h.layout.addAutomaton ha hposition haccepting p.soft
  unfold Product.add at hstep
  simp only at hstep
  split at hstep
  · cases hstep
  · next m ops hfold =>
    cases hstep
    have hprepared : Prepared t set.actionSets automata
        ⟨options, usedVarsFrom t.vars.length set.actionSets.sets, p.name⟩ _
        ⟨(addAutomaton options p.soft product.tracked.task a).1, product.tracked.trackers⟩ :=
      ⟨hc, hlayout, h.used.trans (List.prefix_append roles _), rfl⟩
    obtain ⟨roles', hextends, himpl⟩ := hprepared.foldSteps_addTransition hnumbered hatoms hfold
    have hfront : roles <+: roles' := (List.prefix_append roles _).trans hextends.grows.isPrefix
    refine ⟨roles', ?_, by simp⟩
    refine ⟨hextends.layout, h.used.trans hfront, getElem?_of_prefix hfront h.turn, ?_, ?_, ?_, ?_,
      ?_⟩
    · rw [hextends.goal, hgoal, h.goal, acceptanceGoals_append, List.append_assoc,
        List.append_assoc]
    · simp [h.length_moves]
    · intro k v hv
      rcases getElem?_concat_eq_some_iff.mp hv with hv | ⟨rfl, rfl⟩
      · exact (h.located k v hv).mono hfront
      · exact hlocated.mono hextends.grows.isPrefix
    · intro k hk
      obtain ⟨fs, rfl⟩ := hextends.grows
      simp only [List.length_append, List.length_singleton] at hk
      obtain ⟨hposition', haccepting'⟩ := h.fresh k (by omega)
      have hne : k ≠ product.vars.length := by omega
      simp [hposition', haccepting', hne]
    · intro k a' v ops' ha' hv hops'
      rcases getElem?_concat_eq_some_iff.mp hv with hv | ⟨rfl, rfl⟩
      · have hlt : k < product.moves.length := by
          rw [h.length_moves]
          exact (List.getElem?_eq_some_iff.mp hv).1
        rw [List.getElem?_append_left hlt] at hops'
        exact (h.implements k a' v ops' ha' hv hops').mono hfront
      · rw [← h.length_moves, List.getElem?_concat_length] at hops'
        rw [ha] at ha'
        cases ha'
        cases hops'
        exact himpl

/-- The compilation of all automata. -/
theorem exists_built (hc : t.Consistent) (hlen : automata.length = set.temporal.length)
    (hnumbered : ∀ a ∈ automata, a.Numbered)
    (hatoms : GuardsKeepMeaning options.softMark t set.actionSets automata)
    (h : productOf options t set automata = .ok product) :
    ∃ roles, Built options t set automata roles product ∧
      product.vars.length = automata.length := by
  unfold productOf at h
  simp only [recordingOf, usedVars_recordSets] at h
  have hall := foldSteps_induction (fun seen product => ∃ roles,
    Built options t set automata roles product ∧ product.vars.length = seen.length) h
    ⟨_, built_start options t set automata, rfl⟩ ?_
  · obtain ⟨roles, hbuilt, hvars⟩ := hall
    exact ⟨roles, hbuilt, by simp [hvars, hlen]⟩
  · rintro seen ⟨p, a⟩ product₁ product₂ ⟨rest, hrest⟩ ⟨roles, hbuilt, hvars⟩ hstep
    have hpair : (set.temporal.zip automata)[seen.length]? = some (p, a) := by
      rw [← hrest]
      simp
    have ha := (List.getElem?_zip_eq_some.mp hpair).2
    rw [← hvars] at ha
    have hmem : a ∈ automata := List.mem_of_getElem? ha
    obtain ⟨roles', hbuilt', hvars'⟩ := hbuilt.add hc ha (hnumbered a hmem) (hatoms a hmem) hstep
    exact ⟨roles', hbuilt', by rw [hvars', hvars, List.length_append, List.length_singleton]⟩

end

end Temporal

end PlanConstraints

import PlanConstraints.Proofs.Automaton.Names
import PlanConstraints.Proofs.Compile.FactNames

set_option autoImplicit false

/-!
# Operators in standard form: automata

A compilation with automata keeps operators in standard form.  The variables for the states and the
acceptance of automata and for turns are reserved: guards put no conditions on them, as long as
their atoms are found among sets and the facts of the task.  So the operators of automata have no
conditions on variables that they assign (`isStandard_compileTemporal`).
-/

namespace PlanConstraints

open Temporal (IsPlainMark turnVar)

/-! ## Reserved variables -/

/-- The variables for the use of sets and the tracking of facts exist. -/
def Tracked.Bounds (usedVars : List (String × VarId)) (m : Tracked) : Prop :=
  ∀ var ∈ usedVars.map Prod.snd ++ m.trackers.map Prod.snd, var < m.task.vars.length

/-- The variable is new, and neither records the use of a set nor tracks a fact. -/
structure Tracked.Reserves (t : Task) (usedVars : List (String × VarId)) (m : Tracked)
    (var : VarId) : Prop where
  isNew : t.IsNew m.task var
  notMem : var ∉ usedVars.map Prod.snd ++ m.trackers.map Prod.snd

namespace Tracked

variable {t : Task} {usedVars : List (String × VarId)} {m m' : Tracked} {var : VarId}

theorem Bounds.mono (h : m.Bounds usedVars) {task : Task}
    (hlen : m.task.vars.length ≤ task.vars.length) : Bounds usedVars ⟨task, m.trackers⟩ :=
  fun var hvar => Nat.lt_of_lt_of_le (h var hvar) hlen

theorem Reserves.mono (h : m.Reserves t usedVars var) {task : Task}
    (hlen : m.task.vars.length ≤ task.vars.length) : Reserves t usedVars ⟨task, m.trackers⟩ var :=
  ⟨h.isNew.mono hlen, h.notMem⟩

theorem Bounds.tracks (h : m.Bounds usedVars) (htracks : m.Tracks m') : m'.Bounds usedVars := by
  refine htracks.induction (P := Bounds usedVars) h fun m' f atom h' => ?_
  have hlen : (m'.addTracker f atom).task.vars.length = m'.task.vars.length + 1 := by
    rw [vars_addTracker, List.length_append, List.length_singleton]
  intro var hvar
  rw [addTracker, List.map_append, ← List.append_assoc, List.mem_append] at hvar
  rw [hlen]
  rcases hvar with hvar | hvar
  · exact Nat.lt_succ_of_lt (h' var hvar)
  · rw [List.mem_singleton.mp hvar]
    exact Nat.lt_succ_self _

theorem Reserves.tracks (h : m.Reserves t usedVars var) (htracks : m.Tracks m') :
    m'.Reserves t usedVars var := by
  refine htracks.induction (P := fun m' => m'.Reserves t usedVars var) h fun m' f atom h' => ?_
  refine ⟨h'.isNew.mono (by rw [vars_addTracker, List.length_append]; omega), ?_⟩
  rw [addTracker, List.map_append, ← List.append_assoc, List.mem_append, not_or]
  refine ⟨h'.notMem, fun hvar => ?_⟩
  have hlt := h'.isNew.2
  rw [List.mem_singleton.mp hvar] at hlt
  exact Nat.lt_irrefl _ hlt

/-- Variables that are added are reserved. -/
theorem Bounds.reserves (h : m.Bounds usedVars) {task : Task} (hnew : t.IsNew task var)
    (hadded : m.task.IsNew task var) : Reserves t usedVars ⟨task, m.trackers⟩ var :=
  ⟨hnew, fun hmem => Nat.lt_irrefl _ (Nat.lt_of_lt_of_le (h _ hmem) hadded.1)⟩

/-- Guards put no conditions on a reserved variable. -/
theorem Reserves.ne_of_observes (h : m.Reserves t usedVars var) {s : Scope}
    (hs : s.usedVars = usedVars) {v : VarId} (hv : s.Observes (· < t.vars.length) m v) :
    v ≠ var := by
  rintro rfl
  rcases hv with hold | hused | htracker
  · exact Nat.lt_irrefl _ (Nat.lt_of_lt_of_le hold h.isNew.1)
  · exact h.notMem (List.mem_append_left _ (hs ▸ hused))
  · exact h.notMem (List.mem_append_right _ htracker)

end Tracked

/-! ## Guards -/

/-- An atom that keeps its meaning is a set, or a fact of the task. -/
theorem Scope.knows_of_keepsMeaning {s : Scope} {t : Task} {sets : ActionSets} {m : Tracked}
    (hs : s.usedVars = usedVarsFrom t.vars.length sets.sets) (hvars : t.vars <+: m.task.vars)
    (hfacts : IsPlainMark s.options.softMark → t.AddsNoFacts m.task) {a : Symbol}
    (ha : KeepsMeaning s.options.softMark t sets a) : s.Knows (· < t.vars.length) m a := by
  intro hnone m' htracks f hf
  rw [hs] at hnone
  rcases ha with hset | hfact | hplain
  · exact absurd (lookup_usedVarsFrom_eq_none hnone) hset
  · obtain ⟨g, hg⟩ := Option.ne_none_iff_exists'.mp hfact
    have hprefix := hvars.trans htracks.addsNoFacts.isPrefix
    rw [Task.findFact?_of_prefix hprefix hg] at hf
    cases hf
    exact (Task.inDomain_of_findFact? hg).var_lt
  · rw [((hfacts hplain).trans htracks.addsNoFacts).findFact?] at hf
    exact (Task.inDomain_of_findFact? hf).var_lt

/-! ## Products -/

/-- What has been compiled of the automata has operators in standard form, without conditions on the
variable for turns. -/
structure Product.IsStandard (mark : String) (t : Task) (usedVars : List (String × VarId))
    (turn : VarId) (product : Product) : Prop where
  appends : product.AppendsTo t
  facts : IsPlainMark mark → t.AddsNoFacts product.tracked.task
  bounds : product.tracked.Bounds usedVars
  reserves : product.tracked.Reserves t usedVars turn
  moves : ∀ ops ∈ product.moves, ∀ op ∈ ops, op.IsStandard ∧ ∀ f ∈ op.prevail, f.var ≠ turn

/-- The operators of an automaton are in standard form, if its variables are reserved. -/
theorem Scope.IsMove.isStandard {s : Scope} {t : Task} {a : Automaton Symbol}
    {vars : AutomatonVars} {m : Tracked} {op : Operator}
    (h : s.IsMove (· < t.vars.length) a vars m op)
    (hposition : m.Reserves t s.usedVars vars.position)
    (haccepting : m.Reserves t s.usedVars vars.accepting) : op.IsStandard := by
  refine ⟨h.nodup, fun f hf => Operator.assigns_eq_false_iff.mpr fun e he => ?_⟩
  rcases h.effects e he with hvar | hvar
  · rw [hvar]
    exact (hposition.ne_of_observes rfl (h.observes f hf)).symm
  · rw [hvar]
    exact (haccepting.ne_of_observes rfl (h.observes f hf)).symm

/-- Adding an automaton keeps this, if the atoms of its guards keep their meaning. -/
theorem Product.IsStandard.add {options : CompileOptions} {t : Task} {sets : ActionSets}
    {turn : VarId} {product product' : Product}
    (h : product.IsStandard options.softMark t (usedVarsFrom t.vars.length sets.sets) turn)
    {p : Property × Automaton Symbol}
    (hatoms : ∀ tr ∈ p.2.transitions, ∀ x ∈ tr.guard.atoms, KeepsMeaning options.softMark t sets x)
    (hadd : product.add options (usedVarsFrom t.vars.length sets.sets) p = .ok product') :
    product'.IsStandard options.softMark t (usedVarsFrom t.vars.length sets.sets) turn := by
  obtain ⟨happends, hlen⟩ := h.appends.add hadd
  obtain ⟨htask, hposition, haccepting⟩ :=
    appendsTo_addAutomaton options h.appends.task p.1.soft p.2
  obtain ⟨hadded, hposition', haccepting'⟩ :=
    appendsTo_addAutomaton options (.refl product.tracked.task) p.1.soft p.2
  have hfacts : IsPlainMark options.softMark →
      t.AddsNoFacts (addAutomaton options p.1.soft product.tracked.task p.2).1 := fun hplain =>
    (h.facts hplain).trans (addsNoFacts_addAutomaton hplain p.1.soft product.tracked.task p.2)
  obtain ⟨m, ops, rfl, hmakes⟩ := Product.exists_of_add (· < t.vars.length) hadd
    fun tr htr x hx => Scope.knows_of_keepsMeaning rfl htask.isPrefix hfacts (hatoms tr htr x hx)
  have hreserves := (h.reserves.mono hadded.length_le).tracks hmakes.tracks
  refine ⟨happends, fun hplain => (hfacts hplain).trans hmakes.tracks.addsNoFacts, ?_, hreserves,
    List.forall_mem_append.mpr ⟨h.moves, List.forall_mem_singleton.mpr fun op hop => ?_⟩⟩
  · exact (h.bounds.mono hadded.length_le).tracks hmakes.tracks
  · have hmove := hmakes.isMove op hop
    exact ⟨hmove.isStandard ((h.bounds.reserves hposition hposition').tracks hmakes.tracks)
      ((h.bounds.reserves haccepting haccepting').tracks hmakes.tracks),
      fun f hf => hreserves.ne_of_observes rfl (hmove.observes f hf)⟩

/-! ## Taking turns -/

theorem lt_of_mem_usedVarsFrom {var : Nat} {sets : List ActionSet} :
    ∀ v ∈ (usedVarsFrom var sets).map Prod.snd, v < var + sets.length := by
  induction sets generalizing var with
  | nil => exact List.forall_mem_nil _
  | cons s sets ih =>
    refine List.forall_mem_cons.mpr ⟨Nat.lt_add_of_pos_right (Nat.succ_pos _), fun v hv => ?_⟩
    have hlt := ih v hv
    rw [List.length_cons]
    lia

/-- Before automata are added, the variable for turns is reserved. -/
theorem Product.isStandard_start (options : CompileOptions) (t : Task) (set : PropertySet)
    (automata : List (Automaton Symbol)) :
    Product.IsStandard options.softMark t (usedVarsFrom t.vars.length set.actionSets.sets)
      (recordingOf t set).task.nextVar
      ⟨⟨addTurns options (recordingOf t set).task automata, []⟩, [], []⟩ := by
  obtain ⟨happends, hturn⟩ := Product.appendsTo_start options t set automata
  obtain ⟨hturns, hturn'⟩ :=
    appendsTo_addTurns options (.refl (recordingOf t set).task) automata
  have hbounds : Tracked.Bounds (usedVarsFrom t.vars.length set.actionSets.sets)
      ⟨(recordingOf t set).task, []⟩ := by
    intro var hvar
    rw [List.map_nil, List.append_nil] at hvar
    have hlt := lt_of_mem_usedVarsFrom var hvar
    rw [recordingOf, task_recordSets]
    simpa [length_recordVariables] using hlt
  exact ⟨happends, fun _ => addsNoFacts_addTurns options t set automata,
    hbounds.mono hturns.length_le, hbounds.reserves hturn hturn', List.forall_mem_nil _⟩

theorem isStandard_takeTurn {turn count owner : Nat} {op : Operator} (h : op.IsStandard)
    (hturn : ∀ f ∈ op.prevail, f.var ≠ turn) : (takeTurn turn count owner op).IsStandard := by
  refine ⟨h.1, fun f hf => Operator.assigns_eq_false_iff.mpr ?_⟩
  exact List.forall_mem_append.mpr ⟨Operator.assigns_eq_false_iff.mp (h.2 f hf),
    List.forall_mem_singleton.mpr (hturn f hf).symm⟩

/-- The operators of the automata, if the atoms of all guards keep their meaning. -/
theorem isStandard_productOf {options : CompileOptions} {t : Task} {set : PropertySet}
    {automata : List (Automaton Symbol)} {product : Product}
    (hatoms : GuardsKeepMeaning options.softMark t set.actionSets automata)
    (h : productOf options t set automata = .ok product) :
    product.IsStandard options.softMark t (usedVarsFrom t.vars.length set.actionSets.sets)
      (turnVar t set) := by
  have hstart := Product.isStandard_start options t set automata
  rw [Temporal.nextVar_recordingOf] at hstart
  unfold productOf at h
  simp only [recordingOf, usedVars_recordSets] at h
  exact foldSteps_invariant (Product.IsStandard options.softMark t _ (turnVar t set)) h hstart
    fun p hp _ _ hproduct hadd => hproduct.add (hatoms p.2 (List.of_mem_zip hp).2) hadd

/-! ## Compilation -/

/-- Without temporal properties there is nothing to compile. -/
theorem task_compileTemporal_nil {options : CompileOptions} {translator : Translator} {t : Task}
    {set : PropertySet} {compiled : Compiled} (hnil : set.temporal = [])
    (h : compileTemporal options translator t set = .ok compiled) : compiled.task = t := by
  simp only [compileTemporal, compileAutomata, hnil, traverse, List.isEmpty_nil, if_true] at h
  cases h
  rfl

/-- Compiling temporal properties keeps operators in standard form, if the atoms of the properties
keep their meaning. -/
theorem isStandard_compileTemporal {options : CompileOptions} {translator : Translator} {t : Task}
    {set : PropertySet} {compiled : Compiled} (hcheck : t.check = .ok ())
    (hops : ∀ op ∈ t.operators, op.IsStandard)
    (hatoms : ∀ p ∈ set.temporal, ∀ a ∈ p.formula.atoms,
      KeepsMeaning options.softMark t set.actionSets a)
    (h : compileTemporal options translator t set = .ok compiled) :
    ∀ op ∈ compiled.task.operators, op.IsStandard := by
  by_cases hnil : set.temporal = []
  · rw [task_compileTemporal_nil hnil h]
    exact hops
  · obtain ⟨automata, product, hautomata, hproduct, htask, -⟩ := Temporal.exists_product hnil h
    have hguards : GuardsKeepMeaning options.softMark t set.actionSets automata := by
      intro a ha tr htr x hx
      obtain ⟨p, hp, hautomaton⟩ := mem_of_mem_traverse hautomata ha
      exact hatoms p hp x (atoms_automatonOf hautomaton tr htr x hx)
    obtain ⟨roles, o⟩ := Temporal.exists_outcome hcheck hnil hautomata hproduct htask hguards
    rw [o.operators]
    refine List.forall_mem_append.mpr ⟨List.forall_mem_map.mpr fun op hop => ?_, fun op hop => ?_⟩
    -- The operators of the task get effects only, on the use of sets, on trackers and on the turn.
    · exact (hops op hop).extend (o.consistent.within hop) (List.forall_mem_nil _)
        (List.forall_mem_append.mpr ⟨fun e he => (Temporal.mem_worldEffects he).1,
          List.forall_mem_singleton.mpr (Nat.le_add_right _ _)⟩) List.nodup_nil
        (List.forall_mem_nil _)
    · obtain ⟨k, ops, own, hget, hown, rfl⟩ := Temporal.mem_movesInTurn.mp hop
      obtain ⟨hstandard, hturn⟩ :=
        (isStandard_productOf hguards hproduct).moves ops (List.mem_of_getElem? hget) own hown
      exact isStandard_takeTurn hstandard hturn

end PlanConstraints

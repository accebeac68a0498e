import PlanConstraints.Proofs.Automaton.Names
import PlanConstraints.Proofs.Compile.WellFormed

set_option autoImplicit false

/-!
# Compiled tasks are well-formed: automata

Following automata keeps the task well-formed: its variables stay what they are, every guard speaks
of what exists when its operators are made, and the turn of every automaton is a value of the
variable for turns (`wellFormed_compileTemporal`).
-/

namespace PlanConstraints

/-! ## Auxiliary variables -/

/-- The task is well-formed, and the auxiliary variables have two values. -/
structure Tracked.WellFormed (m : Tracked) : Prop where
  task : m.task.WellFormed
  trackers : ∀ p ∈ m.trackers, m.task.IsSwitch p.2

/-- The same with further variables. -/
structure Tracked.GrowsTo (m m' : Tracked) : Prop where
  vars : m.task.vars <+: m'.task.vars
  wellFormed : m'.WellFormed

namespace Tracked

variable {m m' m'' : Tracked}

theorem WellFormed.growsTo (h : m.WellFormed) : m.GrowsTo m := ⟨List.prefix_refl _, h⟩

theorem GrowsTo.trans (h : m.GrowsTo m') (h' : m'.GrowsTo m'') : m.GrowsTo m'' :=
  ⟨h.vars.trans h'.vars, h'.wellFormed⟩

/-- The effects on an auxiliary variable have the conditions of effects that there are. -/
theorem admitsEffect_trackingEffects {t : Task} {f : Fact} {tracker : VarId}
    (htracker : t.IsSwitch tracker) {op : Operator} (hop : t.Admits op) :
    ∀ e ∈ trackingEffects f tracker op, t.AdmitsEffect e := by
  intro e he
  obtain ⟨old, hold, rfl⟩ := List.mem_map.mp he
  have heffect := hop.effect (List.mem_filter.mp hold).1
  refine ⟨heffect.conditions, fun g hg => ?_, fun g hg => ?_⟩
  · cases hg
  · rcases List.mem_cons.mp hg with rfl | hg
    · exact htracker.ite _ 1 0 (by decide) (by decide)
    · exact heffect.inDomain g (List.mem_cons_of_mem _ hg)

/-- A variable with two values is added that tracks a fact. -/
theorem WellFormed.addTracker (h : m.WellFormed) (f : Fact) {first second : String} {init : Nat}
    (hfirst : IsLine first) (hsecond : IsLine second) (hinit : init < 2) :
    m.GrowsTo ⟨(m.task.addStateVariable [first, second] init).mapOperators fun op =>
        { op with effects := op.effects ++ trackingEffects f m.task.nextVar op },
      m.trackers ++ [(f, m.task.nextVar)]⟩ ∧
    (m.task.addStateVariable [first, second] init).IsSwitch m.task.nextVar := by
  have hgrows := m.task.vars_prefix_addStateVariable [first, second] init
  have hswitch : (m.task.addStateVariable [first, second] init).IsSwitch m.task.nextVar :=
    m.task.isSwitch_addStateVariable init (Nat.le_refl 2)
  refine ⟨⟨hgrows, ⟨(h.task.addSwitch hfirst hsecond hinit).mapOperators fun op hop => ?_,
    fun p hp => ?_⟩⟩, hswitch⟩
  · rw [← List.append_nil op.prevail]
    exact hop.extend (List.forall_mem_nil _) (admitsEffect_trackingEffects hswitch hop)
  · rcases List.mem_append.mp hp with hp | hp
    · exact (h.trackers p hp).mono hgrows
    · rw [List.mem_singleton.mp hp]
      exact hswitch

/-- Tracking a fact gives a variable with two values. -/
theorem WellFormed.track (h : m.WellFormed) (f : Fact) {atom : String} (hatom : IsLine atom) :
    m.GrowsTo (m.track f atom).1 ∧ (m.track f atom).1.task.IsSwitch (m.track f atom).2 := by
  unfold Tracked.track
  split
  · next var hvar =>
    exact ⟨h.growsTo, .of_lookup h.trackers hvar⟩
  · exact h.addTracker f (IsLine.append_append (by decide) hatom)
      (IsLine.append_append (by decide) hatom) (by split <;> decide)

end Tracked

/-! ## Guards -/

namespace Scope

/-- The sets that the guards may name have variables with two values. -/
def WellFormed (s : Scope) (t : Task) : Prop := ∀ p ∈ s.usedVars, t.IsSwitch p.2

variable {s : Scope} {m m' : Tracked}

theorem WellFormed.mono {t t' : Task} (h : s.WellFormed t) (hvars : t.vars <+: t'.vars) :
    s.WellFormed t' := fun p hp => (h p hp).mono hvars

/-- The condition of a literal is on what exists. -/
theorem WellFormed.literalTest (h : s.WellFormed m.task) (hm : m.WellFormed) {l : Literal Symbol}
    (hatom : IsLine l.atom.name) {f : Fact} (hl : s.literalTest m l = .ok (m', f)) :
    m.GrowsTo m' ∧ m'.task.InDomain f := by
  unfold Scope.literalTest at hl
  split at hl
  · next var hvar =>
    cases hl
    have hswitch := Task.IsSwitch.of_lookup h hvar
    exact ⟨hm.growsTo, hswitch.ite _ 0 1 (by decide) (by decide)⟩
  · split at hl
    · cases hl
    · next fact hfact =>
      have hdomain := Task.inDomain_of_findFact? hfact
      split at hl
      · cases hl
        exact ⟨hm.growsTo, hdomain⟩
      · obtain ⟨v, hv, hlt⟩ := hdomain
        simp only [hv] at hl
        split at hl
        · next hsize =>
          cases hl
          refine ⟨hm.growsTo, v, hv, ?_⟩
          simp only [hsize]
          omega
        · split at hl
          · cases hl
            obtain ⟨hgrows, hswitch⟩ := hm.track fact hatom
            exact ⟨hgrows, hswitch 0 (by decide)⟩
          · cases hl

/-- The conditions of a clause are on what exists. -/
theorem WellFormed.foldSteps_addTest (h : s.WellFormed m.task) (hm : m.WellFormed)
    {clause : Clause Symbol} (hatoms : ∀ l ∈ clause, IsLine l.atom.name) {tests : List Fact}
    (hfold : foldSteps s.addTest (m, []) clause = .ok (m', tests)) :
    m.GrowsTo m' ∧ ∀ f ∈ tests, m'.task.InDomain f := by
  refine foldSteps_invariant (fun state => m.GrowsTo state.1 ∧
    ∀ f ∈ state.2, state.1.task.InDomain f) hfold ⟨hm.growsTo, List.forall_mem_nil _⟩ ?_
  rintro l hmem ⟨m₁, tests₁⟩ ⟨m₂, tests₂⟩ ⟨hgrows, htests⟩ hstep
  unfold Scope.addTest at hstep
  split at hstep
  · cases hstep
  · next m₃ f hl =>
    cases hstep
    obtain ⟨hmore, hf⟩ := (h.mono hgrows.vars).literalTest hgrows.wellFormed (hatoms l hmem) hl
    have hold : ∀ g ∈ tests₁, m₂.task.InDomain g := fun g hg => (htests g hg).mono hmore.vars
    refine ⟨hgrows.trans hmore, ?_⟩
    split
    · exact hold
    · exact List.forall_mem_append.mpr ⟨hold, List.forall_mem_singleton.mpr hf⟩

end Scope

/-! ## Transitions -/

/-- The name fills a line, and the effects are on what exists. -/
structure Move.WellFormed (t : Task) (move : Move) : Prop where
  name : IsLine move.name
  effects : ∀ e ∈ move.effects, t.AdmitsEffect e

namespace Move.WellFormed

variable {move : Move} {t t' : Task}

theorem mono (h : move.WellFormed t) (hvars : t.vars <+: t'.vars) : move.WellFormed t' :=
  ⟨h.name, fun e he => (h.effects e he).mono hvars⟩

theorem operator (h : move.WellFormed t) (number? : Option Nat) {tests : List Fact}
    (htests : ∀ f ∈ tests, t.InDomain f) : t.Admits (move.operator number? tests) := by
  cases number? with
  | none => exact Task.admits_new h.name htests h.effects
  | some number =>
    have hnumber : IsLine (move.name ++ " [" ++ toString number) :=
      h.name.append (Text.isWord_natural number).isLine (by decide)
    have hname : IsLine (move.name ++ " [" ++ toString number ++ "]") :=
      hnumber.append_append (by decide)
    exact Task.admits_new hname htests h.effects

end Move.WellFormed

namespace Scope

variable {s : Scope} {m m' : Tracked} {ops ops' : List Operator}

/-- What was made of a part of a guard: operators that the task may have. -/
structure Makes (m : Tracked) (state : Tracked × List Operator) : Prop where
  grows : m.GrowsTo state.1
  admits : ∀ op ∈ state.2, state.1.task.Admits op

theorem WellFormed.addClause (h : s.WellFormed m.task) {move : Move}
    (hmove : move.WellFormed m.task) {state state' : Tracked × List Operator}
    (hstate : Makes m state) {several : Bool} {clause : Clause Symbol × Nat}
    (hatoms : ∀ l ∈ clause.1, IsLine l.atom.name)
    (hstep : s.addClause move several state clause = .ok state') : Makes m state' := by
  unfold Scope.addClause at hstep
  split at hstep
  · cases hstep
  · next m₁ tests htests =>
    obtain ⟨hgrows, hdomain⟩ := (h.mono hstate.grows.vars).foldSteps_addTest
      hstate.grows.wellFormed hatoms htests
    have hgrown := hstate.grows.trans hgrows
    have hold : ∀ op ∈ state.2, m₁.task.Admits op := fun op hop =>
      (hstate.admits op hop).mono hgrows.vars
    split at hstep
    · cases hstep
      exact ⟨hgrown, hold⟩
    · cases hstep
      exact ⟨hgrown, List.forall_mem_append.mpr ⟨hold, List.forall_mem_singleton.mpr
        ((hmove.mono hgrown.vars).operator _ hdomain)⟩⟩

end Scope

/-- The variables for an automaton have values for its states and for acceptance. -/
structure AutomatonVars.WellFormed (t : Task) (a : Automaton Symbol) (vars : AutomatonVars) :
    Prop where
  position : ∀ i < a.states.length, t.InDomain ⟨vars.position, i⟩
  accepting : t.IsSwitch vars.accepting

theorem AutomatonVars.WellFormed.mono {t t' : Task} {a : Automaton Symbol} {vars : AutomatonVars}
    (h : vars.WellFormed t a) (hvars : t.vars <+: t'.vars) : vars.WellFormed t' a :=
  ⟨fun i hi => (h.position i hi).mono hvars, h.accepting.mono hvars⟩

theorem admitsEffect_transitionEffects {t : Task} {a : Automaton Symbol} {vars : AutomatonVars}
    (hvars : vars.WellFormed t a) (acceptance : Acceptance) {source target : State Symbol}
    (hsource : source.id < a.states.length) (htarget : target.id < a.states.length) :
    ∀ e ∈ transitionEffects acceptance vars source target, t.AdmitsEffect e := by
  refine List.forall_mem_cons.mpr ⟨?_, ?_⟩
  · refine Task.admitsEffect_assign (fun value hvalue => ?_) (hvars.position _ htarget)
    cases hvalue
    exact hvars.position _ hsource
  · split
    · refine List.forall_mem_singleton.mpr (Task.admitsEffect_assign (fun value hvalue => ?_) ?_)
      · cases hvalue
        exact hvars.accepting.ite _ 1 0 (by decide) (by decide)
      · exact hvars.accepting.ite _ 1 0 (by decide) (by decide)
    · exact List.forall_mem_nil _

namespace Scope

variable {s : Scope} {m : Tracked}

/-- The operators for a transition. -/
theorem WellFormed.addTransition (h : s.WellFormed m.task) {a : Automaton Symbol}
    (hnumbered : a.Numbered) (hlegible : a.Legible) {vars : AutomatonVars}
    (hvars : vars.WellFormed m.task a) {state state' : Tracked × List Operator}
    (hstate : Makes m state) {tr : Transition Symbol} (htr : tr ∈ a.transitions)
    (hstep : s.addTransition a vars state tr = .ok state') : Makes m state' := by
  obtain ⟨source, target, hsource, htarget, hsourceId, htargetId⟩ := hnumbered.exists_states htr
  have hmove : Move.WellFormed m.task ⟨a.name ++ ": " ++ a.transitionName tr,
      transitionEffects s.options.acceptance vars source target⟩ := by
    refine ⟨hlegible.name.append (hlegible.isLine_transitionName htr) (by decide),
      admitsEffect_transitionEffects hvars _ ?_ ?_⟩
    · rw [hsourceId]
      exact (List.getElem?_eq_some_iff.mp hsource).1
    · rw [htargetId]
      exact (List.getElem?_eq_some_iff.mp htarget).1
  unfold Scope.addTransition at hstep
  simp only [hsource, htarget] at hstep
  split at hstep
  · cases hstep
    exact ⟨hstate.grows, List.forall_mem_append.mpr ⟨hstate.admits, List.forall_mem_singleton.mpr
      ((hmove.mono hstate.grows.vars).operator none (List.forall_mem_nil _))⟩⟩
  · split at hstep
    · cases hstep
    · next clauses hclauses =>
      refine foldSteps_invariant (Makes m) hstep hstate fun clause hzip u u' hu hclause => ?_
      refine h.addClause hmove hu (fun l hl => ?_) hclause
      have hmem : clause.1 ∈ clauses := by
        rw [(List.mem_zipIdx' hzip).2]
        exact List.getElem_mem _
      exact hlegible.atoms tr htr _ (Formula.atoms_toDnf_subset _
        (Formula.atom_mem_of_clauses hclauses clause.1 hmem l hl))

/-- The operators for all transitions of an automaton. -/
theorem WellFormed.addTransitions (h : s.WellFormed m.task) (hm : m.WellFormed)
    {a : Automaton Symbol} (hnumbered : a.Numbered) (hlegible : a.Legible) {vars : AutomatonVars}
    (hvars : vars.WellFormed m.task a) {state : Tracked × List Operator}
    (hfold : foldSteps (s.addTransition a vars) (m, []) a.transitions = .ok state) :
    Makes m state := by
  exact foldSteps_invariant (Makes m) hfold ⟨hm.growsTo, List.forall_mem_nil _⟩
    fun tr htr _ _ hu hstep => h.addTransition hnumbered hlegible hvars hu htr hstep

end Scope

/-! ## Automata -/

theorem length_positionValues {a : Automaton Symbol} (ha : a.Numbered) :
    2 ≤ (positionValues a).length ∧ a.states.length ≤ (positionValues a).length := by
  have hpos := Nat.zero_lt_of_lt ha.initial
  unfold positionValues
  split
  · next hstates => simp [hstates]
  · next states hmany =>
    rw [List.length_map]
    refine ⟨?_, Nat.le_refl _⟩
    match a.states, hmany, hpos with
    | [s], hmany, _ => exact (hmany s rfl).elim
    | _ :: _ :: _, _, _ => simp

theorem isLine_of_mem_positionValues {a : Automaton Symbol} (ha : a.Legible) :
    ∀ value ∈ positionValues a, IsLine value := by
  have hplace : ∀ word : String, IsLine word → ∀ s ∈ a.states,
      IsLine (word ++ "(" ++ s.name ++ "," ++ a.name ++ ")") := by
    intro word hword s hs
    have hinner : '\n' ∉ ("(" ++ s.name ++ "," ++ a.name).toList := by
      simp [ha.states s hs, ha.name.2]
    have hline := hword.append (b := ")") (by decide) hinner
    simpa [String.append_assoc] using hline
  unfold positionValues
  split
  · next s hstates =>
    have hs : s ∈ a.states := by simp [hstates]
    exact List.forall_mem_cons.mpr ⟨hplace "at" (by decide) s hs,
      List.forall_mem_singleton.mpr (hplace "not_at" (by decide) s hs)⟩
  · exact List.forall_mem_map.mpr fun s hs => hplace "at" (by decide) s hs

theorem isLine_of_mem_acceptingValues {mark : String} (hmark : IsLine mark) (soft : Bool)
    {name : String} (hname : IsLine name) :
    IsLine ("not_accepting(" ++ name ++ ")") ∧
      IsLine ((if soft then mark else "") ++ "accepting(" ++ name ++ ")") := by
  have haccepting : IsLine ("accepting(" ++ name ++ ")") :=
    IsLine.append (by decide) (by decide) hname.2
  refine ⟨IsLine.append (by decide) (by decide) hname.2, ?_⟩
  have hmarked : (if soft then mark else "") ++ "accepting(" ++ name ++ ")" =
      (if soft then mark else "") ++ ("accepting(" ++ name ++ ")") := by
    simp only [String.append_assoc]
  rw [hmarked]
  split
  · exact hmark.append_append haccepting
  · rwa [String.empty_append]

/-- An automaton gets variables with values for its states and for acceptance. -/
theorem wellFormed_addAutomaton {t : Task} (h : t.WellFormed) {options : CompileOptions}
    (hmark : IsLine options.softMark) (soft : Bool) {a : Automaton Symbol} (hnumbered : a.Numbered)
    (hlegible : a.Legible) :
    t.GrowsTo (addAutomaton options soft t a).1 ∧
      (addAutomaton options soft t a).2.WellFormed (addAutomaton options soft t a).1 a := by
  obtain ⟨htwo, hstates⟩ := length_positionValues hnumbered
  obtain ⟨hnot, haccepting⟩ := isLine_of_mem_acceptingValues hmark soft hlegible.name
  have hfirst : (t.addStateVariable (positionValues a) a.initial).WellFormed :=
    h.addStateVariable htwo (isLine_of_mem_positionValues hlegible)
      (Nat.lt_of_lt_of_le hnumbered.initial hstates)
  have hvars := t.vars_prefix_addStateVariable (positionValues a) a.initial
  have hposition : ∀ i < a.states.length,
      (t.addStateVariable (positionValues a) a.initial).InDomain ⟨t.nextVar, i⟩ := fun i hi =>
    t.inDomain_addStateVariable a.initial (Nat.lt_of_lt_of_le hi hstates)
  have hadded : (t.addStateVariable (positionValues a) a.initial).GrowsTo
      (addAutomaton options soft t a).1 ∧
        (addAutomaton options soft t a).1.IsSwitch (addAutomaton options soft t a).2.accepting := by
    refine hfirst.addGoalSwitch hnot haccepting ?_ options.addGoals
    split
    · split <;> decide
    · decide
  obtain ⟨hgrows, hswitch⟩ := hadded
  exact ⟨⟨hvars.trans hgrows.vars, hgrows.wellFormed⟩,
    ⟨fun i hi => (hposition i hi).mono hgrows.vars, hswitch⟩⟩

/-! ## Products -/

/-- What was compiled is well-formed, and the task may have the operators of the automata. -/
structure Product.WellFormed (usedVars : List (String × VarId)) (product : Product) : Prop where
  tracked : product.tracked.WellFormed
  usedVars : ∀ p ∈ usedVars, product.tracked.task.IsSwitch p.2
  moves : ∀ ops ∈ product.moves, ∀ op ∈ ops, product.tracked.task.Admits op

variable {options : CompileOptions}

/-- An automaton is added behind others. -/
theorem Product.WellFormed.add {usedVars : List (String × VarId)} {product product' : Product}
    (h : product.WellFormed usedVars) (hmark : IsLine options.softMark)
    {p : Property × Automaton Symbol} (hnumbered : p.2.Numbered) (hlegible : p.2.Legible)
    (hadd : product.add options usedVars p = .ok product') :
    product'.WellFormed usedVars ∧ product.tracked.task.vars <+: product'.tracked.task.vars ∧
      product'.moves.length = product.moves.length + 1 := by
  obtain ⟨hgrows, hvars⟩ :=
    wellFormed_addAutomaton h.tracked.task hmark p.1.soft hnumbered hlegible
  have hadded : Tracked.WellFormed ⟨(addAutomaton options p.1.soft product.tracked.task p.2).1,
      product.tracked.trackers⟩ :=
    ⟨hgrows.wellFormed, fun q hq => (h.tracked.trackers q hq).mono hgrows.vars⟩
  have hused : ∀ q ∈ usedVars,
      (addAutomaton options p.1.soft product.tracked.task p.2).1.IsSwitch q.2 := fun q hq =>
    (h.usedVars q hq).mono hgrows.vars
  unfold Product.add at hadd
  simp only at hadd
  split at hadd
  · cases hadd
  · next m ops hfold =>
    cases hadd
    have hscope : Scope.WellFormed ⟨options, usedVars, p.1.name⟩
        (addAutomaton options p.1.soft product.tracked.task p.2).1 := hused
    have hmakes := hscope.addTransitions hadded hnumbered hlegible hvars hfold
    have hprefix := hgrows.vars.trans hmakes.grows.vars
    refine ⟨⟨hmakes.grows.wellFormed, fun q hq => (hused q hq).mono hmakes.grows.vars, ?_⟩,
      hprefix, List.length_append⟩
    exact List.forall_mem_append.mpr ⟨fun ops' hops' op hop => (h.moves ops' hops' op hop).mono
      hprefix, List.forall_mem_singleton.mpr hmakes.admits⟩

/-- Automata are added one after the other. -/
theorem Product.WellFormed.foldSteps_add {usedVars : List (String × VarId)}
    {product product' : Product} (h : product.WellFormed usedVars)
    (hmark : IsLine options.softMark) {ps : List (Property × Automaton Symbol)}
    (hps : ∀ p ∈ ps, p.2.Numbered ∧ p.2.Legible)
    (hfold : foldSteps (Product.add options usedVars) product ps = .ok product') :
    product'.WellFormed usedVars ∧ product.tracked.task.vars <+: product'.tracked.task.vars ∧
      product'.moves.length = product.moves.length + ps.length := by
  refine foldSteps_induction (fun seen product' => product'.WellFormed usedVars ∧
    product.tracked.task.vars <+: product'.tracked.task.vars ∧
      product'.moves.length = product.moves.length + seen.length) hfold
    ⟨h, List.prefix_refl _, rfl⟩ fun seen p u u' hseen hu hadd => ?_
  obtain ⟨hwell, hvars, hlength⟩ := hu
  have hp := hps p (mem_of_prefix_concat hseen)
  obtain ⟨hwell', hvars', hlength'⟩ := hwell.add hmark hp.1 hp.2 hadd
  refine ⟨hwell', hvars.trans hvars', ?_⟩
  rw [hlength', hlength, List.length_append, List.length_singleton, Nat.add_assoc]

/-! ## Taking turns -/

section

variable {t : Task} {turn count : Nat}

theorem admits_takeTurn (hturn : ∀ value < count, t.InDomain ⟨turn, value⟩) {owner : Nat}
    (howner : owner < count) {op : Operator} (hop : t.Admits op) :
    t.Admits (takeTurn turn count owner op) := by
  rw [takeTurn, Operator.addEffect_eq_extend]
  refine hop.extend (List.forall_mem_nil _) (List.forall_mem_singleton.mpr ?_)
  refine Task.admitsEffect_assign (fun value hvalue => ?_)
    (hturn _ (Nat.mod_lt _ (Nat.zero_lt_of_lt howner)))
  cases hvalue
  exact hturn owner howner

/-- Every automaton has a turn of its own. -/
theorem admits_movesInTurn (hturn : ∀ value < count, t.InDomain ⟨turn, value⟩) {owner : Nat}
    {moves : List (List Operator)} (howner : owner + moves.length ≤ count)
    (hmoves : ∀ ops ∈ moves, ∀ op ∈ ops, t.Admits op) :
    ∀ op ∈ movesInTurn turn count owner moves, t.Admits op := by
  induction moves generalizing owner with
  | nil => exact List.forall_mem_nil _
  | cons ops moves ih =>
    obtain ⟨hops, hmoves⟩ := List.forall_mem_cons.mp hmoves
    rw [List.length_cons] at howner
    refine List.forall_mem_append.mpr ⟨List.forall_mem_map.mpr fun op hop => ?_,
      ih (by omega) hmoves⟩
    exact admits_takeTurn hturn (by omega) (hops op hop)

theorem wellFormed_inTurns {usedVars : List (String × VarId)} {product : Product}
    (h : product.WellFormed usedVars)
    (hturn : ∀ value < count, product.tracked.task.InDomain ⟨turn, value⟩)
    (hcount : product.moves.length < count) : (product.inTurns turn count).WellFormed := by
  have hmapped : (product.tracked.task.mapOperators (takeTurn turn count 0)).WellFormed :=
    h.tracked.task.mapOperators fun op hop =>
      admits_takeTurn hturn (Nat.zero_lt_of_lt hcount) hop
  refine hmapped.withOperators (List.forall_mem_append.mpr
    ⟨fun op hop => hmapped.admits hop, ?_⟩)
  have hmoves : ∀ op ∈ movesInTurn turn count 1 product.moves, product.tracked.task.Admits op :=
    admits_movesInTurn hturn (by omega) h.moves
  have hvars : product.tracked.task.vars <+:
      (product.tracked.task.mapOperators (takeTurn turn count 0)).vars := List.prefix_refl _
  exact fun op hop => (hmoves op hop).mono hvars

/-- The variable for turns has a value for the task and for every automaton. -/
theorem wellFormed_addTurns (h : t.WellFormed) (options : CompileOptions)
    {automata : List (Automaton Symbol)} (hsome : automata ≠ [])
    (hnames : ∀ a ∈ automata, '\n' ∉ a.name.toList) :
    t.GrowsTo (addTurns options t automata) ∧
      ∀ value < automata.length + 1, (addTurns options t automata).InDomain ⟨t.nextVar, value⟩ := by
  have hlength : (turnValues automata).length = automata.length + 1 := by simp [turnValues]
  have hpos : 0 < automata.length := List.length_pos_iff.mpr hsome
  have hvalues : ∀ value ∈ turnValues automata, IsLine value :=
    List.forall_mem_cons.mpr ⟨by decide, List.forall_mem_map.mpr fun a ha =>
      IsLine.append (by decide) (by decide) (hnames a ha)⟩
  have hturned : (t.addStateVariable (turnValues automata) 0).WellFormed :=
    h.addStateVariable (by omega) hvalues (by omega)
  have hgrows := t.vars_prefix_addStateVariable (turnValues automata) 0
  have hdomain : ∀ value < automata.length + 1,
      (t.addStateVariable (turnValues automata) 0).InDomain ⟨t.nextVar, value⟩ :=
    fun value hvalue => t.inDomain_addStateVariable 0 (hlength ▸ hvalue)
  unfold addTurns
  simp only
  split
  · exact ⟨⟨hgrows, hturned.addGoal (hdomain 0 (by omega))⟩, hdomain⟩
  · exact ⟨⟨hgrows, hturned⟩, hdomain⟩

end

/-! ## Compilation -/

/-- With an automaton for each property, the compiled task is well-formed. -/
theorem wellFormed_compileAutomata {t : Task} (h : t.WellFormed) {set : PropertySet}
    (hset : set.Legible) (hmark : IsLine options.softMark) {automata : List (Automaton Symbol)}
    (hautomata : ∀ a ∈ automata, a.Numbered ∧ a.Legible)
    (hlength : automata.length = set.temporal.length) {compiled : Compiled}
    (hcompile : compileAutomata options t set automata = .ok compiled) :
    compiled.task.WellFormed := by
  unfold compileAutomata at hcompile
  split at hcompile
  · cases hcompile
    exact h
  · next hsome =>
    split at hcompile
    · cases hcompile
    · next product hproduct =>
      cases hcompile
      obtain ⟨-, hused⟩ := wellFormed_recordSets h t.operators.length hset.sets
      have hne : automata ≠ [] := by
        rintro rfl
        exact hsome (List.isEmpty_iff.mpr (List.length_eq_zero_iff.mp hlength.symm))
      obtain ⟨hturns, hdomain⟩ := wellFormed_addTurns hused.task options hne
        fun a ha => (hautomata a ha).2.name.2
      have hstart : Product.WellFormed (recordingOf t set).usedVars
          ⟨⟨addTurns options (recordingOf t set).task automata, []⟩, [], []⟩ :=
        ⟨⟨hturns.wellFormed, List.forall_mem_nil _⟩,
          fun p hp => (hused.usedVars p hp).mono hturns.vars, List.forall_mem_nil _⟩
      obtain ⟨hwell, hvars, hmoves⟩ := hstart.foldSteps_add hmark
        (fun p hp => hautomata p.2 (List.of_mem_zip hp).2) hproduct
      have hcount : product.moves.length = set.temporal.length := by
        rw [hmoves, List.length_zip, hlength, Nat.min_self]
        exact Nat.zero_add _
      rw [hlength] at hdomain
      exact wellFormed_inTurns hwell (fun value hvalue => (hdomain value hvalue).mono hvars)
        (by omega)

/-- Compiling temporal properties keeps the task well-formed, whatever the translator answers. -/
theorem wellFormed_compileTemporal {t : Task} (h : t.WellFormed) {set : PropertySet}
    (hset : set.Legible) (hmark : IsLine options.softMark) {translator : Translator}
    {compiled : Compiled} (hcompile : compileTemporal options translator t set = .ok compiled) :
    compiled.task.WellFormed := by
  unfold compileTemporal at hcompile
  split at hcompile
  · cases hcompile
  · next automata hautomata =>
    refine wellFormed_compileAutomata h hset hmark (fun a ha => ?_) (length_traverse hautomata)
      hcompile
    obtain ⟨p, hp, hautomaton⟩ := mem_of_mem_traverse hautomata ha
    exact ⟨numbered_automatonOf hautomaton, legible_automatonOf (hset.temporal p hp) hautomaton⟩

end PlanConstraints

import PlanConstraints.Proofs.Compile.Additions
import PlanConstraints.Proofs.Formula.Atoms
import PlanConstraints.Proofs.Temporal.Turns

set_option autoImplicit false

/-!
# What a compilation adds: automata

While the operators of automata are made, the task changes only by variables that track facts
(`Tracked.Tracks`).  The operators are those of transitions, with effects on the variables of their
automaton, and conditions on variables that guards observe, at most one on each (`Scope.IsMove`).
So the compiled task is the task with additions, whatever the atoms of the guards refer to
(`appendsTo_compileTemporal`).
-/

namespace PlanConstraints

/-! ## Auxiliary variables -/

/-- Facts are tracked, one after the other. -/
inductive Tracked.Tracks (m : Tracked) : Tracked → Prop where
  | refl : m.Tracks m
  | track {m' : Tracked} (h : m.Tracks m') (f : Fact) (atom : String) :
    m.Tracks (m'.track f atom).1

namespace Tracked

variable {m m' m'' : Tracked}

theorem Tracks.trans (h : m.Tracks m') (h' : m'.Tracks m'') : m.Tracks m'' := by
  induction h' with
  | refl => exact h
  | track _ f atom ih => exact ih.track f atom

/-- A variable that tracks a fact, with the effects of the operators on it. -/
def addTracker (m : Tracked) (f : Fact) (atom : String) : Tracked where
  task := (m.task.addStateVariable ["false_aux_" ++ atom, "true_aux_" ++ atom]
    (if f.holds m.task.init then 1 else 0)).mapOperators fun op =>
      op.extend [] (trackingEffects f m.task.nextVar op)
  trackers := m.trackers ++ [(f, m.task.nextVar)]

/-- Either the fact is tracked already, or it gets a variable. -/
theorem track_cases (m : Tracked) (f : Fact) (atom : String) :
    (∃ var, m.trackers.lookup f = some var ∧ m.track f atom = (m, var)) ∨
      m.trackers.lookup f = none ∧ m.track f atom = (m.addTracker f atom, m.task.nextVar) := by
  unfold Tracked.track
  cases m.trackers.lookup f with
  | some var => exact .inl ⟨var, rfl, rfl⟩
  | none =>
    refine .inr ⟨rfl, ?_⟩
    simp [addTracker, Operator.extend]

/-- The variable that is given for a fact is one of the auxiliary variables. -/
theorem mem_trackers_track (m : Tracked) (f : Fact) (atom : String) :
    (m.track f atom).2 ∈ (m.track f atom).1.trackers.map Prod.snd := by
  rcases m.track_cases f atom with ⟨var, hlookup, htrack⟩ | ⟨-, htrack⟩
  · rw [htrack]
    exact List.mem_map.mpr ⟨(f, var), mem_of_lookup_eq_some hlookup, rfl⟩
  · rw [htrack]
    simp [addTracker]

/-- What tracking a fact keeps, if adding a variable for it does. -/
theorem Tracks.induction {P : Tracked → Prop} (h : m.Tracks m') (start : P m)
    (next : ∀ m' f atom, P m' → P (addTracker m' f atom)) : P m' := by
  induction h with
  | refl => exact start
  | @track m' _ f atom ih =>
    rcases m'.track_cases f atom with ⟨var, -, htrack⟩ | ⟨-, htrack⟩
    · rw [htrack]
      exact ih
    · rw [htrack]
      exact next m' f atom ih

theorem vars_addTracker (m : Tracked) (f : Fact) (atom : String) :
    (m.addTracker f atom).task.vars = m.task.vars ++
      [⟨"var" ++ toString m.task.nextVar, -1, ["false_aux_" ++ atom, "true_aux_" ++ atom]⟩] := rfl

theorem Tracks.length_le (h : m.Tracks m') : m.task.vars.length ≤ m'.task.vars.length :=
  h.induction (P := fun m' => m.task.vars.length ≤ m'.task.vars.length) (Nat.le_refl _)
    fun m' f atom hle => by
      rw [vars_addTracker, List.length_append]
      exact Nat.le_add_right_of_le hle

theorem Tracks.length_operators (h : m.Tracks m') :
    m'.task.operators.length = m.task.operators.length :=
  h.induction (P := fun m' => m'.task.operators.length = m.task.operators.length) rfl
    fun _ _ _ hlen => (List.length_map _).trans hlen

theorem Tracks.trackers_subset (h : m.Tracks m') : m.trackers ⊆ m'.trackers :=
  h.induction (P := fun m' => m.trackers ⊆ m'.trackers) (fun _ hx => hx)
    fun _ _ _ hsub => List.Subset.trans hsub (List.subset_append_left _ _)

end Tracked

namespace Task.AppendsTo

variable {t : Task} {m m' : Tracked} {rename : String → String}

theorem addTracker (h : AppendsTo rename t m.task) (f : Fact) (atom : String) :
    AppendsTo rename t (m.addTracker f atom).task := by
  refine (h.addStateVariable _ _).mapOperators fun op => Operator.extendsTo_addEffects op ?_
  intro e he
  obtain ⟨old, -, rfl⟩ := List.mem_map.mp he
  exact h.isNew_nextVar _ _

theorem tracks (h : AppendsTo rename t m.task) (htracks : m.Tracks m') :
    AppendsTo rename t m'.task :=
  htracks.induction (P := fun m' => AppendsTo rename t m'.task) h
    fun _ f atom h' => h'.addTracker f atom

end Task.AppendsTo

/-! ## Guards -/

namespace Scope

variable {s : Scope} {known : VarId → Prop} {m m' : Tracked}

/-- What guards put conditions on: variables of facts, which are those of a kind, and the variables
for the use of sets and the tracking of facts. -/
def Observes (s : Scope) (known : VarId → Prop) (m : Tracked) (var : VarId) : Prop :=
  known var ∨ var ∈ s.usedVars.map Prod.snd ∨ var ∈ m.trackers.map Prod.snd

/-- If the atom is found among the facts, now or when more facts are tracked, it is a fact of a
variable of the kind. -/
def Knows (s : Scope) (known : VarId → Prop) (m : Tracked) (a : Symbol) : Prop :=
  s.usedVars.lookup a.name = none → ∀ m', m.Tracks m' →
    ∀ f, m'.task.findFact? a.name = some f → known f.var

theorem Knows.tracks {a : Symbol} (h : s.Knows known m a) (htracks : m.Tracks m') :
    s.Knows known m' a := fun hnone m'' hmore => h hnone m'' (htracks.trans hmore)

theorem Observes.tracks {var : VarId} (h : s.Observes known m var) (htracks : m.Tracks m') :
    s.Observes known m' var :=
  h.imp_right (Or.imp_right fun hvar => List.map_subset _ htracks.trackers_subset hvar)

/-- The condition of a literal is on an observed variable. -/
theorem observes_of_literalTest {l : Literal Symbol} (hatom : s.Knows known m l.atom) {f : Fact}
    (h : s.literalTest m l = .ok (m', f)) : m.Tracks m' ∧ s.Observes known m' f.var := by
  unfold Scope.literalTest at h
  split at h
  · next var hvar =>
    cases h
    exact ⟨.refl, .inr (.inl (List.mem_map.mpr ⟨_, mem_of_lookup_eq_some hvar, rfl⟩))⟩
  · next hnone =>
    split at h
    · cases h
    · next g hg =>
      have hknown : known g.var := hatom hnone m .refl g hg
      -- Only the size of the domain tells which condition a negated fact has.
      have hnegated : ∀ size : Nat,
          (if size = 2 then .ok (m, ⟨g.var, 1 - g.value⟩)
            else if s.options.auxiliaryVariables then
              .ok ((m.track g l.atom.name).1, ⟨(m.track g l.atom.name).2, 0⟩)
            else .error (.unsupportedNegation s.property l.atom size) :
            Except CompileError (Tracked × Fact)) = .ok (m', f) →
          m.Tracks m' ∧ s.Observes known m' f.var := by
        intro size hsize
        split at hsize
        · cases hsize
          exact ⟨.refl, .inl hknown⟩
        · split at hsize
          · cases hsize
            exact ⟨.track .refl g l.atom.name, .inr (.inr (m.mem_trackers_track g l.atom.name))⟩
          · cases hsize
      split at h
      · cases h
        exact ⟨.refl, .inl hknown⟩
      · exact hnegated _ h

/-- The conditions of a clause are on observed variables. -/
theorem observes_of_addTest {cl : Clause Symbol} (hatoms : ∀ l ∈ cl, s.Knows known m l.atom)
    {tests : List Fact} (h : foldSteps s.addTest (m, []) cl = .ok (m', tests)) :
    m.Tracks m' ∧ ∀ f ∈ tests, s.Observes known m' f.var := by
  refine foldSteps_invariant (fun state => m.Tracks state.1 ∧
    ∀ f ∈ state.2, s.Observes known state.1 f.var) h ⟨.refl, List.forall_mem_nil _⟩ ?_
  rintro l hmem ⟨m₁, tests₁⟩ ⟨m₂, tests₂⟩ ⟨htracks, htests⟩ hstep
  unfold Scope.addTest at hstep
  split at hstep
  · cases hstep
  · next m₃ f hl =>
    cases hstep
    obtain ⟨hmore, hf⟩ := observes_of_literalTest ((hatoms l hmem).tracks htracks) hl
    have hold : ∀ g ∈ tests₁, s.Observes known m₂ g.var := fun g hg => (htests g hg).tracks hmore
    refine ⟨htracks.trans hmore, ?_⟩
    split
    · exact hold
    · exact List.forall_mem_append.mpr ⟨hold, List.forall_mem_singleton.mpr hf⟩

theorem nodup_of_isConflicting {tests : List Fact} (h : isConflicting tests = false) :
    (tests.map Fact.var).Nodup := by
  induction tests with
  | nil => exact List.nodup_nil
  | cons f fs ih =>
    rw [isConflicting, Bool.or_eq_false_iff, List.any_eq_false] at h
    rw [List.map_cons, List.nodup_cons]
    refine ⟨fun hmem => ?_, ih h.2⟩
    obtain ⟨g, hg, hvar⟩ := List.mem_map.mp hmem
    exact h.1 g hg (beq_iff_eq.mpr hvar)

/-! ## Transitions -/

/-- The operator is one for a transition of the automaton, whose turn is not looked at yet. -/
def IsOfTransition (mode : Acceptance) (a : Automaton Symbol) (vars : AutomatonVars)
    (op : Operator) : Prop :=
  ∃ tr ∈ a.transitions, ∃ source target number? tests, a.state? tr.source = some source ∧
    a.state? tr.target = some target ∧
      op = (Temporal.transitionMove mode a vars tr source target).operator number? tests

/-- Transitions have effects on the variables of their automaton. -/
theorem var_of_mem_transitionEffects (acceptance : Acceptance) (vars : AutomatonVars)
    (source target : State Symbol) :
    ∀ e ∈ transitionEffects acceptance vars source target,
      e.var = vars.position ∨ e.var = vars.accepting := by
  refine List.forall_mem_cons.mpr ⟨.inl rfl, ?_⟩
  split
  · exact List.forall_mem_singleton.mpr (.inr rfl)
  · exact List.forall_mem_nil _

/-- What the operators of an automaton are like: each is one for a transition, and has at most one
condition on each variable that guards observe. -/
structure IsMove (s : Scope) (known : VarId → Prop) (a : Automaton Symbol) (vars : AutomatonVars)
    (m : Tracked) (op : Operator) : Prop where
  ofTransition : IsOfTransition s.options.acceptance a vars op
  nodup : (op.prevail.map Fact.var).Nodup
  observes : ∀ f ∈ op.prevail, s.Observes known m f.var

/-- Operators of an automaton are made, while facts are tracked. -/
structure MakesMoves (s : Scope) (known : VarId → Prop) (a : Automaton Symbol)
    (vars : AutomatonVars) (m : Tracked) (state : Tracked × List Operator) : Prop where
  tracks : m.Tracks state.1
  isMove : ∀ op ∈ state.2, s.IsMove known a vars state.1 op

variable {a : Automaton Symbol} {vars : AutomatonVars} {state state' : Tracked × List Operator}

/-- The operators of an automaton have effects on its variables only. -/
theorem IsMove.effects {op : Operator} (h : s.IsMove known a vars m op) :
    ∀ e ∈ op.effects, e.var = vars.position ∨ e.var = vars.accepting := by
  obtain ⟨tr, -, source, target, number?, tests, -, -, rfl⟩ := h.ofTransition
  exact var_of_mem_transitionEffects _ vars source target

theorem IsMove.tracks {op : Operator} (h : s.IsMove known a vars m op) (htracks : m.Tracks m') :
    s.IsMove known a vars m' op :=
  ⟨h.ofTransition, h.nodup, fun f hf => (h.observes f hf).tracks htracks⟩

theorem MakesMoves.tracksMore (h : s.MakesMoves known a vars m state)
    (htracks : state.1.Tracks m') : s.MakesMoves known a vars m (m', state.2) :=
  ⟨h.tracks.trans htracks, fun op hop => (h.isMove op hop).tracks htracks⟩

/-- One more operator. -/
theorem MakesMoves.concat (h : s.MakesMoves known a vars m state) {op : Operator}
    (hop : s.IsMove known a vars state.1 op) :
    s.MakesMoves known a vars m (state.1, state.2 ++ [op]) :=
  ⟨h.tracks, List.forall_mem_append.mpr ⟨h.isMove, List.forall_mem_singleton.mpr hop⟩⟩

/-- The operator of a clause, if there is one. -/
theorem MakesMoves.addClause (h : s.MakesMoves known a vars m state) {move : Move}
    (hmove : ∀ number? tests, IsOfTransition s.options.acceptance a vars
      (move.operator number? tests)) {several : Bool}
    {clause : Clause Symbol × Nat} (hatoms : ∀ l ∈ clause.1, s.Knows known m l.atom)
    (hstep : s.addClause move several state clause = .ok state') :
    s.MakesMoves known a vars m state' := by
  unfold Scope.addClause at hstep
  split at hstep
  · cases hstep
  · next m₁ tests htests =>
    obtain ⟨htracks, hobserves⟩ :=
      observes_of_addTest (fun l hl => (hatoms l hl).tracks h.tracks) htests
    split at hstep
    · cases hstep
      exact h.tracksMore htracks
    · next hpossible =>
      cases hstep
      rw [Bool.not_eq_true, Bool.or_eq_false_iff] at hpossible
      exact (h.tracksMore htracks).concat
        ⟨hmove _ _, nodup_of_isConflicting hpossible.2, hobserves⟩

/-- The operators of a transition. -/
theorem MakesMoves.addTransition (h : s.MakesMoves known a vars m state)
    {tr : Transition Symbol} (htr : tr ∈ a.transitions)
    (hatoms : ∀ x ∈ tr.guard.atoms, s.Knows known m x)
    (hstep : s.addTransition a vars state tr = .ok state') :
    s.MakesMoves known a vars m state' := by
  unfold Scope.addTransition at hstep
  split at hstep
  · next source target hsource htarget =>
    have hmove : ∀ number? tests, IsOfTransition s.options.acceptance a vars
        ((Temporal.transitionMove s.options.acceptance a vars tr source target).operator
          number? tests) := fun number? tests =>
      ⟨tr, htr, source, target, number?, tests, hsource, htarget, rfl⟩
    simp only at hstep
    split at hstep
    · cases hstep
      exact h.concat ⟨hmove none [], List.nodup_nil, List.forall_mem_nil _⟩
    · split at hstep
      · cases hstep
      · next clauses hclauses =>
        refine foldSteps_invariant (s.MakesMoves known a vars m) hstep h
          fun clause hzip u u' hu => hu.addClause hmove fun l hl => hatoms _ ?_
        refine Formula.atoms_toDnf_subset _ ?_
        exact Formula.atom_mem_of_clauses hclauses clause.1 (List.fst_mem_of_mem_zipIdx hzip) l hl
  · cases hstep
    exact h

/-- The operators of all transitions of an automaton. -/
theorem makesMoves_of_foldSteps
    (hatoms : ∀ tr ∈ a.transitions, ∀ x ∈ tr.guard.atoms, s.Knows known m x)
    (hfold : foldSteps (s.addTransition a vars) (m, []) a.transitions = .ok state) :
    s.MakesMoves known a vars m state :=
  foldSteps_invariant (s.MakesMoves known a vars m) hfold ⟨.refl, List.forall_mem_nil _⟩
    fun tr htr _ _ hu hstep => hu.addTransition htr (hatoms tr htr) hstep

end Scope

/-! ## Automata -/

/-- Adding an automaton adds its variables, and makes the operators of its transitions. -/
theorem Product.exists_foldSteps_of_add {options : CompileOptions}
    {usedVars : List (String × VarId)} {product product' : Product} {p : Property}
    {a : Automaton Symbol} (h : product.add options usedVars (p, a) = .ok product') :
    let added := addAutomaton options p.soft product.tracked.task a
    let scope : Scope := ⟨options, usedVars, p.name⟩
    ∃ m ops, product' = ⟨m, product.vars ++ [added.2], product.moves ++ [ops]⟩ ∧
      foldSteps (scope.addTransition a added.2) (⟨added.1, product.tracked.trackers⟩, [])
        a.transitions = .ok (m, ops) := by
  unfold Product.add at h
  simp only at h
  split at h
  · cases h
  · next m ops hfold =>
    cases h
    exact ⟨m, ops, rfl, hfold⟩

/-- What adding an automaton makes of a product. -/
theorem Product.exists_of_add {options : CompileOptions} {usedVars : List (String × VarId)}
    (known : VarId → Prop) {product product' : Product} {p : Property} {a : Automaton Symbol}
    (h : product.add options usedVars (p, a) = .ok product') :
    let added := addAutomaton options p.soft product.tracked.task a
    let scope : Scope := ⟨options, usedVars, p.name⟩
    let start : Tracked := ⟨added.1, product.tracked.trackers⟩
    (∀ tr ∈ a.transitions, ∀ x ∈ tr.guard.atoms, scope.Knows known start x) →
    ∃ m ops, product' = ⟨m, product.vars ++ [added.2], product.moves ++ [ops]⟩ ∧
      scope.MakesMoves known a added.2 start (m, ops) := by
  intro added scope start hatoms
  obtain ⟨m, ops, rfl, hfold⟩ := Product.exists_foldSteps_of_add h
  exact ⟨m, ops, rfl, Scope.makesMoves_of_foldSteps hatoms hfold⟩

/-- The product is made of the task by additions. -/
structure Product.AppendsTo (t : Task) (product : Product) : Prop where
  task : Task.AppendsTo id t product.tracked.task
  moves : ∀ ops ∈ product.moves, ∀ op ∈ ops, ∀ e ∈ op.effects, t.IsNew product.tracked.task e.var

section

variable {options : CompileOptions} {t t' : Task}

theorem operators_addAutomaton (options : CompileOptions) (soft : Bool) (t : Task)
    (a : Automaton Symbol) : (addAutomaton options soft t a).1.operators = t.operators := by
  unfold addAutomaton
  cases options.addGoals <;> rfl

/-- The variables of an automaton are new. -/
theorem appendsTo_addAutomaton (options : CompileOptions) (h : Task.AppendsTo id t t') (soft : Bool)
    (a : Automaton Symbol) :
    let added := addAutomaton options soft t' a
    Task.AppendsTo id t added.1 ∧ t.IsNew added.1 added.2.position ∧
      t.IsNew added.1 added.2.accepting := by
  have hposition := h.isNew_nextVar (positionValues a) a.initial
  have hfirst := h.addStateVariable (positionValues a) a.initial
  have hgrows (init : Nat) : (t'.addStateVariable (positionValues a) a.initial).vars.length ≤
      ((t'.addStateVariable (positionValues a) a.initial).addStateVariable
        (acceptingValues options.softMark soft a.name) init).vars.length := by simp
  have hsecond := hfirst.addStateVariable (acceptingValues options.softMark soft a.name)
  have haccepting := hfirst.isNew_nextVar (acceptingValues options.softMark soft a.name)
  unfold addAutomaton
  cases options.addGoals with
  | false => exact ⟨hsecond _, hposition.mono (hgrows _), haccepting _⟩
  | true =>
    exact ⟨(hsecond _).addGoal _, (hposition.mono (hgrows _)).addGoal _, (haccepting _).addGoal _⟩

/-- An automaton adds variables, and operators with effects on them. -/
theorem Product.AppendsTo.add {product product' : Product} (h : product.AppendsTo t)
    {usedVars : List (String × VarId)} {p : Property × Automaton Symbol}
    (hadd : product.add options usedVars p = .ok product') :
    product'.AppendsTo t ∧
      product.tracked.task.vars.length ≤ product'.tracked.task.vars.length := by
  obtain ⟨htask, hposition, haccepting⟩ :=
    appendsTo_addAutomaton options h.task p.1.soft p.2
  obtain ⟨m, ops, rfl, hmakes⟩ := Product.exists_of_add (fun _ => True) hadd
    fun _ _ _ _ _ _ _ _ _ => trivial
  have hadded := (appendsTo_addAutomaton options (.refl product.tracked.task) p.1.soft
    p.2).1.length_le
  have hmade := hmakes.tracks.length_le
  refine ⟨⟨htask.tracks hmakes.tracks, List.forall_mem_append.mpr
    ⟨fun ops' hops' op hop e he => ?_, List.forall_mem_singleton.mpr fun op hop e he => ?_⟩⟩,
      Nat.le_trans hadded hmade⟩
  · exact (h.moves ops' hops' op hop e he).mono (Nat.le_trans hadded hmade)
  · rcases (hmakes.isMove op hop).effects e he with hvar | hvar
    · rw [hvar]
      exact hposition.mono hmade
    · rw [hvar]
      exact haccepting.mono hmade

/-! ## Taking turns -/

theorem operators_addTurns (options : CompileOptions) (t : Task)
    (automata : List (Automaton Symbol)) :
    (addTurns options t automata).operators = t.operators := by
  unfold addTurns
  cases options.addGoals <;> rfl

theorem appendsTo_addTurns (options : CompileOptions) (h : Task.AppendsTo id t t')
    (automata : List (Automaton Symbol)) :
    Task.AppendsTo id t (addTurns options t' automata) ∧
      t.IsNew (addTurns options t' automata) t'.nextVar := by
  have hturn := h.isNew_nextVar (turnValues automata) 0
  have hturned := h.addStateVariable (turnValues automata) 0
  unfold addTurns
  cases options.addGoals with
  | false => exact ⟨hturned, hturn⟩
  | true => exact ⟨hturned.addGoal _, hturn.addGoal _⟩

/-- What the automata are added to. -/
theorem Product.appendsTo_start (options : CompileOptions) (t : Task) (set : PropertySet)
    (automata : List (Automaton Symbol)) :
    Product.AppendsTo t ⟨⟨addTurns options (recordingOf t set).task automata, []⟩, [], []⟩ ∧
      t.IsNew (addTurns options (recordingOf t set).task automata)
        (recordingOf t set).task.nextVar := by
  obtain ⟨hturns, hturn⟩ :=
    appendsTo_addTurns options ((Task.AppendsTo.refl t).recordSets set.actionSets) automata
  exact ⟨⟨hturns, List.forall_mem_nil _⟩, hturn⟩

theorem extendsTo_takeTurn {kind : VarId → Prop} {turn count owner : Nat} (hturn : kind turn)
    (op : Operator) : op.ExtendsTo kind (takeTurn turn count owner op) := by
  rw [takeTurn, Operator.addEffect_eq_extend]
  exact Operator.extendsTo_addEffects op (List.forall_mem_singleton.mpr hturn)

theorem Product.AppendsTo.inTurns {product : Product} (h : product.AppendsTo t) {turn : VarId}
    (hturn : t.IsNew product.tracked.task turn) (count : Nat) :
    Task.AppendsTo id t (product.inTurns turn count) := by
  refine (h.task.mapOperators fun op => extendsTo_takeTurn hturn op).addOperators fun op hop => ?_
  obtain ⟨k, ops, own, hops, hown, rfl⟩ := Temporal.mem_movesInTurn.mp hop
  exact (extendsTo_takeTurn hturn own).effects (h.moves ops (List.mem_of_getElem? hops) own hown)

/-! ## Compilation -/

/-- Compiling temporal properties adds to the task, whatever the translator answers. -/
theorem appendsTo_compileTemporal {translator : Translator} {set : PropertySet}
    {compiled : Compiled} (h : compileTemporal options translator t set = .ok compiled) :
    Task.AppendsTo id t compiled.task := by
  unfold compileTemporal at h
  split at h
  · cases h
  · next automata hautomata =>
    unfold compileAutomata at h
    split at h
    · cases h
      exact .refl t
    · split at h
      · cases h
      · next product hproduct =>
        cases h
        obtain ⟨happends, hnew⟩ := foldSteps_invariant (fun product => product.AppendsTo t ∧
          t.IsNew product.tracked.task (recordingOf t set).task.nextVar) hproduct
          (Product.appendsTo_start options t set automata)
          fun p _ product product' ⟨hproduct, hturn⟩ hadd =>
            ⟨(hproduct.add hadd).1, hturn.mono (hproduct.add hadd).2⟩
        exact happends.inTurns hnew _

end

end PlanConstraints

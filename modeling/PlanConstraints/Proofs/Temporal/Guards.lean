import PlanConstraints.Proofs.Formula.Atoms
import PlanConstraints.Proofs.Temporal.Layout

set_option autoImplicit false

/-!
# Conditions for guards

The conditions that a clause of a guard puts on variables are true exactly if the clause is true of
what is observed in the situation (`Prepared.foldSteps_addTest`), whatever variables are added
later.  So the operators for a guard are applicable in the situations in which it is true
(`Prepared.addTransition`).
-/

namespace PlanConstraints

/-- What an automaton observes after operators of the task, in the state that they lead to: the use
of an action set, or else whether a fact is true. -/
def observe (t : Task) (sets : ActionSets) (path : List Nat) (s : Assignment) (a : Symbol) : Bool :=
  match sets.get? a.name with
  | some set => t.uses path set
  | none => (t.findFact? a.name).any (Fact.holds s)

theorem respectsNames_observe (t : Task) (sets : ActionSets) (path : List Nat) (s : Assignment) :
    RespectsNames (observe t sets path s) :=
  respectsNames_of_name fun name =>
    match sets.get? name with
    | some set => t.uses path set
    | none => (t.findFact? name).any (Fact.holds s)

/-- Further variables do not give the atom a meaning that it has not in the task: it names an action
set or a fact of the task, or else the mark of soft goals makes no facts of values.

Where this fails, an atom that means nothing in the task is taken for the acceptance of an
automaton.  That is the one way in which guards can go wrong, and what is proved of plans, of
transitions that can be taken and of conditions apart from effects excludes it by this predicate. -/
def KeepsMeaning (mark : String) (t : Task) (sets : ActionSets) (a : Symbol) : Prop :=
  sets.get? a.name ≠ none ∨ t.findFact? a.name ≠ none ∨ Temporal.IsPlainMark mark

/-- The atoms of all guards keep their meaning. -/
def GuardsKeepMeaning (mark : String) (t : Task) (sets : ActionSets)
    (automata : List (Automaton Symbol)) : Prop :=
  ∀ a ∈ automata, ∀ tr ∈ a.transitions, ∀ x ∈ tr.guard.atoms, KeepsMeaning mark t sets x

namespace Temporal

/-- The roles of the variables that record the use of sets. -/
def usedRoles (sets : ActionSets) : List Role :=
  sets.sets.zipIdx.map fun (set, j) => .used j set

/-- What is observed in a situation. -/
def Situation.observe (t : Task) (sets : ActionSets) (c : Situation) : Symbol → Bool :=
  PlanConstraints.observe t sets c.path c.state

theorem Situation.respectsNames_observe (t : Task) (sets : ActionSets) (c : Situation) :
    RespectsNames (c.observe t sets) := PlanConstraints.respectsNames_observe t sets c.path c.state

/-- The conditions are true exactly in the situations with a property, also with more variables. -/
def Means (t : Task) (roles : List Role) (tests : List Fact) (P : Situation → Prop) : Prop :=
  ∀ more c, t.IsState c.state →
    ((∀ f ∈ tests, f.holds (c.encode t (roles ++ more)) = true) ↔ P c)

section

variable {mark : String} {t : Task} {sets : ActionSets} {automata : List (Automaton Symbol)}
  {roles roles' : List Role} {m m' : Tracked} {s : Scope}

theorem Means.mono {tests : List Fact} {P : Situation → Prop} (h : Means t roles tests P)
    (hfront : roles <+: roles') : Means t roles' tests P := by
  obtain ⟨rest, rfl⟩ := hfront
  intro more c hc
  rw [List.append_assoc]
  exact h _ c hc

theorem getElem?_of_prefix {α : Type} {xs ys : List α} (hfront : xs <+: ys) {i : Nat} {x : α}
    (h : xs[i]? = some x) : ys[i]? = some x := by
  obtain ⟨rest, rfl⟩ := hfront
  rw [List.getElem?_append_left (List.getElem?_eq_some_iff.mp h).1]
  exact h

/-- A condition on the variable of a role. -/
theorem means_role {i : Nat} {role : Role} (hrole : roles[i]? = some role) (value : Nat) :
    Means t roles [⟨t.vars.length + i, value⟩] fun c => c.value t role = value := by
  intro more c hc
  rw [List.forall_mem_singleton]
  refine Situation.holds_encode_iff hc.length_eq ?_
  rw [List.getElem?_append_left (List.getElem?_eq_some_iff.mp hrole).1]
  exact hrole

/-- A condition on a variable of the task. -/
theorem means_fact {f : Fact} (hf : f.var < t.vars.length) :
    Means t roles [f] fun c => f.holds c.state = true := by
  intro more c hc
  rw [List.forall_mem_singleton, Situation.holds_encode_of_lt hc.length_eq hf]

theorem Means.congr {tests : List Fact} {P Q : Situation → Prop} (h : Means t roles tests P)
    (hiff : ∀ c, t.IsState c.state → (P c ↔ Q c)) : Means t roles tests Q := fun more c hc =>
  (h more c hc).trans (hiff c hc)

/-! ## Literals -/

/-- In a variable with two values, the one that is not the value of a fact. -/
theorem holds_other_iff {x : Assignment} (hx : t.IsState x) {f : Fact} {v : Variable}
    (hv : t.vars[f.var]? = some v) (hsize : v.values.length = 2) (hf : f.value < 2) :
    (⟨f.var, 1 - f.value⟩ : Fact).holds x = true ↔ f.holds x = false := by
  have hlt : f.var < x.length := by
    rw [hx.length_eq]
    exact (List.getElem?_eq_some_iff.mp hv).1
  have hvalue : x[f.var]? = some x[f.var] := List.getElem?_eq_getElem hlt
  obtain ⟨w, hw, hdom⟩ := hx.inDomain f.var _ hvalue
  rw [hv] at hw
  cases hw
  rw [← Bool.not_eq_true, Fact.holds_iff, Fact.holds_iff, hvalue, Option.some_inj, Option.some_inj]
  simp only [hsize] at hdom ⊢
  omega

theorem getElem?_of_usedRoles (hroles : usedRoles sets <+: roles) {j : Nat} {set : ActionSet}
    (hget : sets.sets[j]? = some set) : roles[j]? = some (.used j set) := by
  refine getElem?_of_prefix hroles ?_
  simp [usedRoles, hget]

/-- A literal of an action set. -/
theorem means_used (hroles : usedRoles sets <+: roles) {j : Nat} {set : ActionSet}
    (hget : sets.sets[j]? = some set) {l : Literal Symbol}
    (hfind : sets.get? l.atom.name = some set) :
    Means t roles [⟨t.vars.length + j, if l.negated then 0 else 1⟩]
      fun c => l.holds (c.observe t sets) = true := by
  refine (means_role (getElem?_of_usedRoles hroles hget) _).congr fun c _ => ?_
  simp only [Literal.holds, Situation.observe, observe, hfind, Situation.value]
  cases t.uses c.path set <;> cases l.negated <;> simp

/-- A literal of a fact, which is observed in the state. -/
theorem holds_literal_of_fact {l : Literal Symbol} (hfind : sets.get? l.atom.name = none) {f : Fact}
    (hfact : t.findFact? l.atom.name = some f) (c : Situation) :
    l.holds (c.observe t sets) = (f.holds c.state != l.negated) := by
  simp [Literal.holds, Situation.observe, observe, hfind, hfact]

/-- The condition for a literal is true exactly if the literal is true of what is observed. -/
theorem Layout.literalTest (hc : t.Consistent) (h : Layout mark t automata roles m)
    (hroles : usedRoles sets <+: roles) (hs : s.usedVars = usedVarsFrom t.vars.length sets.sets)
    {l : Literal Symbol} (hatom : KeepsMeaning mark t sets l.atom) {f : Fact}
    (hl : s.literalTest m l = .ok (m', f)) :
    ∃ roles', Extends mark t automata roles m roles' m' ∧
      Means t roles' [f] fun c => l.holds (c.observe t sets) = true := by
  unfold Scope.literalTest at hl
  rw [hs] at hl
  split at hl
  · next var hvar =>
    obtain ⟨j, set, rfl, hget, hfind⟩ := lookup_usedVarsFrom_eq_some hvar
    cases hl
    exact ⟨roles, h.extends, means_used hroles hget hfind⟩
  · next hvar =>
    have hfind : sets.get? l.atom.name = none := lookup_usedVarsFrom_eq_none hvar
    have hname : IsPlainMark mark ∨ t.findFact? l.atom.name ≠ none :=
      (hatom.resolve_left fun hne => hne hfind).symm
    rw [h.findFact? hname] at hl
    split at hl
    · cases hl
    · next f hfact =>
      have hdom := Task.inDomain_of_findFact? hfact
      have hlt := hdom.var_lt
      have hholds := holds_literal_of_fact hfind hfact
      rw [h.getElem?_vars hlt] at hl
      cases hneg : l.negated with
      | false =>
        rw [hneg] at hl hholds
        cases hl
        exact ⟨roles, h.extends, (means_fact hlt).congr fun c _ => by rw [hholds]; simp⟩
      | true =>
        obtain ⟨v, hv, hvalue⟩ := hdom
        simp only [hneg, hv, Bool.not_true, Bool.false_eq_true, if_false] at hl
        split at hl
        · next hsize =>
          cases hl
          refine ⟨roles, h.extends,
            (means_fact (f := ⟨f.var, 1 - f.value⟩) hlt).congr fun c hstate => ?_⟩
          rw [hholds, hneg, holds_other_iff hstate hv hsize (hsize ▸ hvalue)]
          simp
        · split at hl
          · cases hl
            obtain ⟨roles', i, hextends, hrole, hvar⟩ :=
              h.track hc.length_init ⟨v, hv, hvalue⟩ l.atom.name
            refine ⟨roles', hextends, ?_⟩
            rw [hvar]
            refine (means_role hrole 0).congr fun c _ => ?_
            rw [hholds, hneg, Situation.value]
            cases f.holds c.state <;> simp
          · cases hl

/-! ## Clauses -/

/-- The task is laid out for the roles of the sets, and more. -/
structure Prepared (t : Task) (sets : ActionSets) (automata : List (Automaton Symbol)) (s : Scope)
    (roles : List Role) (m : Tracked) : Prop where
  consistent : t.Consistent
  layout : Layout s.options.softMark t automata roles m
  used : usedRoles sets <+: roles
  usedVars : s.usedVars = usedVarsFrom t.vars.length sets.sets

theorem Prepared.extends (h : Prepared t sets automata s roles m)
    (hextends : Extends s.options.softMark t automata roles m roles' m') :
    Prepared t sets automata s roles' m' where
  consistent := h.consistent
  layout := hextends.layout
  used := h.used.trans hextends.grows.isPrefix
  usedVars := h.usedVars

/-- The condition of a literal is added to others. -/
theorem Means.addTest {tests : List Fact} {P Q : Situation → Prop} {f : Fact}
    (h : Means t roles tests P) (hf : Means t roles [f] Q) :
    Means t roles (if tests.contains f then tests else tests ++ [f]) fun c => P c ∧ Q c := by
  intro more c hc
  show _ ↔ P c ∧ Q c
  rw [← h more c hc, ← hf more c hc, List.forall_mem_singleton]
  split
  · next hmem => exact (and_iff_left_of_imp fun hall => hall f (by simpa using hmem)).symm
  · rw [List.forall_mem_append, List.forall_mem_singleton]

theorem nodup_addTest {tests : List Fact} (h : tests.Nodup) (f : Fact) :
    (if tests.contains f then tests else tests ++ [f]).Nodup := by
  split
  · exact h
  · next hmem =>
    rw [List.nodup_append]
    refine ⟨h, by simp, fun g hg g' hg' => ?_⟩
    rintro rfl
    rw [List.mem_singleton.mp hg'] at hg
    exact hmem (by simpa using hg)

/-- The conditions of a clause are true exactly if the clause is true of what is observed. -/
theorem Prepared.foldSteps_addTest (h : Prepared t sets automata s roles m) {cl : Clause Symbol}
    (hatoms : ∀ l ∈ cl, KeepsMeaning s.options.softMark t sets l.atom) {tests : List Fact}
    (hfold : foldSteps s.addTest (m, []) cl = .ok (m', tests)) :
    ∃ roles', Extends s.options.softMark t automata roles m roles' m' ∧ tests.Nodup ∧
      Means t roles' tests fun c => cl.holds (c.observe t sets) = true := by
  refine foldSteps_induction (fun seen state => ∃ roles',
    Extends s.options.softMark t automata roles m roles' state.1 ∧ state.2.Nodup ∧
      Means t roles' state.2 fun c => Clause.holds (c.observe t sets) seen = true) hfold
    ⟨roles, h.layout.extends, List.nodup_nil, fun _ _ _ => by simp [Clause.holds]⟩ ?_
  rintro seen l ⟨m₁, tests₁⟩ u hfront ⟨roles₁, hextends, hnodup, hmeans⟩ hstep
  unfold Scope.addTest at hstep
  split at hstep
  · cases hstep
  · next m₂ f hl =>
    cases hstep
    obtain ⟨roles₂, hextends', hf⟩ :=
      (h.extends hextends).layout.literalTest h.consistent (h.extends hextends).used h.usedVars
        (hatoms l (mem_of_prefix_concat hfront)) hl
    refine ⟨roles₂, hextends.trans hextends', nodup_addTest hnodup f,
      ((hmeans.mono hextends'.grows.isPrefix).addTest hf).congr fun c _ => ?_⟩
    simp [Clause.holds]

/-- Different conditions on one variable cannot all be true. -/
theorem not_holds_of_isConflicting {tests : List Fact} (hnodup : tests.Nodup)
    (h : isConflicting tests = true) (x : Assignment) :
    ¬ ∀ f ∈ tests, f.holds x = true := by
  induction tests with
  | nil => cases h
  | cons f fs ih =>
    intro hall
    rw [isConflicting, Bool.or_eq_true, List.any_eq_true] at h
    rw [List.nodup_cons] at hnodup
    rcases h with ⟨g, hg, hvar⟩ | h
    · have hf := (Fact.holds_iff x f).mp (hall f List.mem_cons_self)
      have hg' := (Fact.holds_iff x g).mp (hall g (List.mem_cons_of_mem _ hg))
      rw [beq_iff_eq] at hvar
      rw [hvar, hf, Option.some_inj] at hg'
      have hsame : f = g := by
        cases f
        cases g
        simp_all
      exact hnodup.1 (hsame ▸ hg)
    · exact ih hnodup.2 h fun g hg => hall g (List.mem_cons_of_mem _ hg)

/-! ## Operators for guards -/

/-- The operators are those of a move, and in every situation with the property there is one whose
conditions are true. -/
structure Covers (t : Task) (roles : List Role) (move : Move) (ops : List Operator)
    (P : Situation → Prop) : Prop where
  sound : ∀ op ∈ ops, ∃ number? tests, op = move.operator number? tests ∧
    ∀ more c, t.IsState c.state → (∀ f ∈ tests, f.holds (c.encode t (roles ++ more)) = true) → P c
  complete : ∀ more c, t.IsState c.state → P c → ∃ number? tests,
    move.operator number? tests ∈ ops ∧ ∀ f ∈ tests, f.holds (c.encode t (roles ++ more)) = true

theorem Covers.mono {move : Move} {ops : List Operator} {P : Situation → Prop}
    (h : Covers t roles move ops P) (hfront : roles <+: roles') :
    Covers t roles' move ops P := by
  obtain ⟨rest, rfl⟩ := hfront
  refine ⟨fun op hop => ?_, fun more c hc hP => ?_⟩
  · obtain ⟨number?, tests, rfl, hsound⟩ := h.sound op hop
    refine ⟨number?, tests, rfl, fun more c hc hall => hsound (rest ++ more) c hc ?_⟩
    rw [← List.append_assoc]
    exact hall
  · obtain ⟨number?, tests, hmem, hall⟩ := h.complete (rest ++ more) c hc hP
    rw [← List.append_assoc] at hall
    exact ⟨number?, tests, hmem, hall⟩

theorem covers_nil (move : Move) {P : Situation → Prop} (hP : ∀ c, ¬ P c) :
    Covers t roles move [] P :=
  ⟨fun _ hop => (List.not_mem_nil hop).elim, fun _ c _ h => (hP c h).elim⟩

theorem covers_singleton (move : Move) (number? : Option Nat) {tests : List Fact}
    {P : Situation → Prop} (h : Means t roles tests P) :
    Covers t roles move [move.operator number? tests] P := by
  refine ⟨fun op hop => ⟨number?, tests, List.mem_singleton.mp hop, fun more c hc hall => ?_⟩,
    fun more c hc hP => ⟨number?, tests, List.mem_singleton_self _, ?_⟩⟩
  · exact (h more c hc).mp hall
  · exact (h more c hc).mpr hP

theorem Covers.append {move : Move} {xs ys : List Operator} {P Q : Situation → Prop}
    (hxs : Covers t roles move xs P) (hys : Covers t roles move ys Q) :
    Covers t roles move (xs ++ ys) fun c => P c ∨ Q c := by
  refine ⟨fun op hop => ?_, fun more c hc hPQ => ?_⟩
  · rcases List.mem_append.mp hop with hop | hop
    · obtain ⟨number?, tests, heq, hsound⟩ := hxs.sound op hop
      exact ⟨number?, tests, heq, fun more c hc hall => .inl (hsound more c hc hall)⟩
    · obtain ⟨number?, tests, heq, hsound⟩ := hys.sound op hop
      exact ⟨number?, tests, heq, fun more c hc hall => .inr (hsound more c hc hall)⟩
  · rcases hPQ with hP | hQ
    · obtain ⟨number?, tests, hmem, hall⟩ := hxs.complete more c hc hP
      exact ⟨number?, tests, List.mem_append_left _ hmem, hall⟩
    · obtain ⟨number?, tests, hmem, hall⟩ := hys.complete more c hc hQ
      exact ⟨number?, tests, List.mem_append_right _ hmem, hall⟩

theorem Covers.congr {move : Move} {ops : List Operator} {P Q : Situation → Prop}
    (h : Covers t roles move ops P) (hiff : ∀ c, P c ↔ Q c) : Covers t roles move ops Q := by
  have hPQ : P = Q := funext fun c => propext (hiff c)
  exact hPQ ▸ h

/-- A clause has an operator, unless it cannot be true. -/
theorem Prepared.addClause (h : Prepared t sets automata s roles m) {move : Move} {several : Bool}
    {ops ops' : List Operator} {cl : Clause Symbol} {number : Nat}
    (hatoms : ∀ l ∈ cl, KeepsMeaning s.options.softMark t sets l.atom)
    (hstep : s.addClause move several (m, ops) (cl, number) = .ok (m', ops')) :
    ∃ roles' new, Extends s.options.softMark t automata roles m roles' m' ∧ ops' = ops ++ new ∧
      Covers t roles' move new fun c => cl.holds (c.observe t sets) = true := by
  unfold Scope.addClause at hstep
  split at hstep
  · cases hstep
  · next m₁ tests hfold =>
    obtain ⟨roles', hextends, hnodup, hmeans⟩ := h.foldSteps_addTest hatoms hfold
    split at hstep
    · next hnever =>
      cases hstep
      refine ⟨roles', [], hextends, (List.append_nil _).symm, ?_⟩
      rcases Bool.or_eq_true_iff.mp hnever with hcontr | hconfl
      · refine covers_nil move fun c => ?_
        rw [Clause.holds_eq_false_of_isContradictory (c.respectsNames_observe t sets) hcontr]
        exact Bool.false_ne_true
      · refine ⟨fun _ hop => (List.not_mem_nil hop).elim, fun more c hc hholds => ?_⟩
        exact (not_holds_of_isConflicting hnodup hconfl _ ((hmeans more c hc).mpr hholds)).elim
    · cases hstep
      exact ⟨roles', _, hextends, rfl, covers_singleton move _ hmeans⟩

/-- The operators for clauses cover their disjunction. -/
theorem Prepared.foldSteps_addClause (h : Prepared t sets automata s roles m) {move : Move}
    {several : Bool} {ops ops' : List Operator} {cls : List (Clause Symbol × Nat)}
    (hatoms : ∀ c ∈ cls, ∀ l ∈ c.1, KeepsMeaning s.options.softMark t sets l.atom)
    (hfold : foldSteps (s.addClause move several) (m, ops) cls = .ok (m', ops')) :
    ∃ roles' new, Extends s.options.softMark t automata roles m roles' m' ∧ ops' = ops ++ new ∧
      Covers t roles' move new fun c =>
        (cls.map Prod.fst).any (Clause.holds (c.observe t sets)) = true := by
  refine foldSteps_induction (fun seen state => ∃ roles' new,
    Extends s.options.softMark t automata roles m roles' state.1 ∧ state.2 = ops ++ new ∧
      Covers t roles' move new fun c =>
        (seen.map Prod.fst).any (Clause.holds (c.observe t sets)) = true) hfold
    ⟨roles, [], h.layout.extends, (List.append_nil _).symm,
      covers_nil move fun _ => Bool.false_ne_true⟩ ?_
  rintro seen ⟨cl, number⟩ ⟨m₁, ops₁⟩ ⟨m₂, ops₂⟩ hfront ⟨roles₁, new, hextends, rfl, hcovers⟩ hstep
  obtain ⟨roles₂, more, hextends', rfl, hcovers'⟩ :=
    (h.extends hextends).addClause (hatoms (cl, number) (mem_of_prefix_concat hfront)) hstep
  refine ⟨roles₂, new ++ more, hextends.trans hextends', List.append_assoc _ _ _,
    ((hcovers.mono hextends'.grows.isPrefix).append hcovers').congr fun c => ?_⟩
  simp

/-- What the operators of a transition have in common. -/
def transitionMove (mode : Acceptance) (a : Automaton Symbol) (vars : AutomatonVars)
    (tr : Transition Symbol) (source target : State Symbol) : Move :=
  ⟨a.name ++ ": " ++ a.transitionName tr, transitionEffects mode vars source target⟩

/-- A guard is true in a situation. -/
def Situation.allows (t : Task) (sets : ActionSets) (c : Situation) (tr : Transition Symbol) :
    Prop :=
  tr.guard.eval (c.observe t sets) = .ok true

/-- A transition has operators that cover its guard. -/
theorem Prepared.addTransition (h : Prepared t sets automata s roles m) {a : Automaton Symbol}
    {vars : AutomatonVars} {ops ops' : List Operator} {tr : Transition Symbol}
    {source target : State Symbol} (hsource : a.state? tr.source = some source)
    (htarget : a.state? tr.target = some target)
    (hatoms : ∀ x ∈ tr.guard.atoms, KeepsMeaning s.options.softMark t sets x)
    (hstep : s.addTransition a vars (m, ops) tr = .ok (m', ops')) :
    ∃ roles' new, Extends s.options.softMark t automata roles m roles' m' ∧ ops' = ops ++ new ∧
      Covers t roles' (transitionMove s.options.acceptance a vars tr source target) new
        fun c => c.allows t sets tr := by
  unfold Scope.addTransition at hstep
  simp only [hsource, htarget] at hstep
  split at hstep
  · next htrue =>
    cases hstep
    refine ⟨roles, _, h.layout.extends, rfl, covers_singleton _ none fun more c _ => ?_⟩
    rw [Situation.allows, Formula.eq_const_of_isTrue htrue, Formula.eval]
    simp
  · split at hstep
    · cases hstep
    · next clauses hclauses =>
      have hliterals : ∀ c ∈ clauses.zipIdx, ∀ l ∈ c.1,
          KeepsMeaning s.options.softMark t sets l.atom := fun c hc l hl =>
        hatoms _ (Formula.atoms_toDnf_subset _
          (Formula.atom_mem_of_clauses hclauses c.1 (List.fst_mem_of_mem_zipIdx hc) l hl))
      obtain ⟨roles', new, hextends, hops, hcovers⟩ := h.foldSteps_addClause hliterals hstep
      refine ⟨roles', new, hextends, hops, hcovers.congr fun c => ?_⟩
      rw [Situation.allows, Formula.eval_of_clauses_toDnf (c.respectsNames_observe t sets) hclauses,
        List.zipIdx_map_fst, Except.ok.injEq]

end

end Temporal

end PlanConstraints

import PlanConstraints.Proofs.Temporal.Simulation

set_option autoImplicit false

/-!
# Transitions that are blocked

An automaton whose turn it is can take a transition with a true guard, unless only transitions into
accepting states set the acceptance: then it cannot come back to an accepting state once it has left
one.
-/

namespace PlanConstraints

/-- What the variables of a new task tell in a state: the use of an action set, or else whether a
fact of the task is true. -/
def readOff (t : Task) (usedVars : List (String × VarId)) (s : Assignment) (a : Symbol) : Bool :=
  match usedVars.lookup a.name with
  | some var => Fact.holds s ⟨var, 1⟩
  | none => (t.findFact? a.name).any (Fact.holds s)

/-- At some point of the run, the variable had the number of an accepting state. -/
def Visited (task : Task) (a : Automaton Symbol) (position : VarId) (numbers : List Nat) : Prop :=
  ∃ earlier s q, earlier <+: numbers ∧ task.runAt? earlier = some s ∧
    Fact.holds s ⟨position, q⟩ = true ∧ a.accepts q = true

namespace Temporal

section

variable {options : CompileOptions} {t : Task} {set : PropertySet}
  {automata : List (Automaton Symbol)} {product : Product} {roles : List Role} {task : Task}

/-- The variables tell what is observed. -/
theorem Outcome.readOff_encode (o : Outcome options t set automata product roles task)
    {c : Situation} (hlen : c.state.length = t.vars.length) :
    readOff t (usedVarsFrom t.vars.length set.actionSets.sets) (c.encode t roles) =
      c.observe t set.actionSets := by
  funext a
  unfold readOff
  split
  · next var hvar =>
    obtain ⟨j, s, rfl, hget, hfind⟩ := lookup_usedVarsFrom_eq_some hvar
    have hfind : set.actionSets.get? a.name = some s := hfind
    have hrole := getElem?_of_usedRoles o.built.used hget
    rw [Bool.eq_iff_iff, Situation.holds_encode_iff hlen hrole]
    simp [Situation.value, Situation.observe, observe, hfind]
  · next hvar =>
    have hfind : set.actionSets.get? a.name = none := lookup_usedVarsFrom_eq_none hvar
    simp only [Situation.observe, observe, hfind]
    cases hfact : t.findFact? a.name with
    | none => rfl
    | some f =>
      exact Situation.holds_encode_of_lt hlen (Task.inDomain_of_findFact? hfact).var_lt

/-! ## Having been accepting -/

theorem visited_concat_iff {a : Automaton Symbol} {position : VarId} {numbers : List Nat} {i : Nat}
    {s : Assignment} (hrun : task.runAt? (numbers ++ [i]) = some s) :
    Visited task a position (numbers ++ [i]) ↔
      Visited task a position numbers ∨
        ∃ q, Fact.holds s ⟨position, q⟩ = true ∧ a.accepts q = true := by
  constructor
  · rintro ⟨earlier, s', q, hfront, hs', hq, haccepts⟩
    rcases List.prefix_concat_iff.mp hfront with rfl | hfront
    · rw [hrun] at hs'
      cases hs'
      exact .inr ⟨q, hq, haccepts⟩
    · exact .inl ⟨earlier, s', q, hfront, hs', hq, haccepts⟩
  · rintro (⟨earlier, s', q, hfront, hs', hq, haccepts⟩ | ⟨q, hq, haccepts⟩)
    · exact ⟨earlier, s', q, hfront.trans (List.prefix_append _ _), hs', hq, haccepts⟩
    · exact ⟨_, s, q, List.prefix_refl _, hrun, hq, haccepts⟩

/-- If only transitions into accepting states set the acceptance, it is never taken back. -/
theorem Step.accepted_eq {c c' : Situation} {i : Nat}
    (hstep : Step .targetOnly t set.actionSets automata c i c') {k : Nat} {a : Automaton Symbol}
    (ha : automata[k]? = some a)
    (hpresent : a.accepts (c.places k).state = true → (c.places k).accepted = true) :
    (c'.places k).accepted = ((c.places k).accepted || a.accepts (c'.places k).state) := by
  cases hstep with
  | act hop happ hturn =>
    show (c.places k).accepted = ((c.places k).accepted || a.accepts (c.places k).state)
    revert hpresent
    cases (c.places k).accepted <;> cases a.accepts (c.places k).state <;> simp
  | @move k' b place hi hb hturn hmoves =>
    by_cases hk : k = k'
    · subst hk
      rw [ha] at hb
      cases hb
      obtain ⟨tr, -, -, -, -, rfl⟩ := hmoves
      simp only [Situation.move, if_pos]
      cases a.accepts tr.target <;> simp [Acceptance.follow]
    · simp only [Situation.move, if_neg hk]
      revert hpresent
      cases (c.places k).accepted <;> cases a.accepts (c.places k).state <;> simp

/-- If only transitions into accepting states set the acceptance, it tells whether the automaton has
been in an accepting state. -/
theorem Outcome.exists_reached_visited (o : Outcome options t set automata product roles task)
    (hmode : options.acceptance = .targetOnly) {numbers : List Nat} {s : Assignment}
    (h : task.runAt? numbers = some s) :
    ∃ c, s = c.encode t roles ∧ Reached options.acceptance t set automata numbers c ∧
      ∀ (k : Nat) a vars, automata[k]? = some a → product.vars[k]? = some vars →
        ((c.places k).accepted = true ↔ Visited task a vars.position numbers) := by
  induction numbers using List.reverseRecOn generalizing s with
  | nil =>
    cases h
    refine ⟨start t automata, o.init, reached_start _ t set automata, fun k a vars ha hvars => ?_⟩
    have hplace : (start t automata).places k = a.start := by simp [start, ha]
    have hposition := fun q => o.built.holds_position_iff (c := start t automata) (q := q)
      o.consistent.length_init hvars
    rw [hplace] at hposition ⊢
    constructor
    · intro haccepted
      exact ⟨[], _, a.initial, List.prefix_refl _, rfl, by rw [o.init, hposition]; rfl, haccepted⟩
    · rintro ⟨earlier, s, q, hfront, hs, hq, haccepts⟩
      cases List.prefix_nil.mp hfront
      cases hs
      rw [o.init, hposition] at hq
      rw [← hq] at haccepts
      exact haccepts
  | append_singleton numbers i ih =>
    obtain ⟨_, op, hs, hop, happ, rfl⟩ := Task.runAt?_concat_eq_some_iff.mp h
    obtain ⟨c, rfl, hreached, hvisited⟩ := ih hs
    have hc := Task.isState_of_runAt? o.consistent hreached.run
    obtain ⟨c', hstep, hnext⟩ := o.step_of_isApplicable hc hop happ
    have hreached' := hreached.step o.pos hstep
    refine ⟨c', hnext, hreached', fun k a vars ha hvars => ?_⟩
    have hlen := hc.length_eq
    have hlen' := (Task.isState_of_runAt? o.consistent hreached'.run).length_eq
    have hpresent : a.accepts (c.places k).state = true → (c.places k).accepted = true := by
      intro haccepts
      exact (hvisited k a vars ha hvars).mpr ⟨numbers, _, _, List.prefix_refl _, hs,
        (o.built.holds_position_iff hlen hvars).mpr rfl, haccepts⟩
    have hlast : (∃ q, Fact.holds (op.apply (c.encode t roles)) ⟨vars.position, q⟩ = true ∧
        a.accepts q = true) ↔ a.accepts (c'.places k).state = true := by
      rw [hnext]
      constructor
      · rintro ⟨q, hq, haccepts⟩
        rw [(o.built.holds_position_iff hlen' hvars).mp hq]
        exact haccepts
      · intro haccepts
        exact ⟨_, (o.built.holds_position_iff hlen' hvars).mpr rfl, haccepts⟩
    rw [hmode] at hstep
    rw [visited_concat_iff h, hlast, hstep.accepted_eq ha hpresent, Bool.or_eq_true,
      hvisited k a vars ha hvars]

/-! ## Transitions of an automaton in its turn -/

/-- In the turn of an automaton, a transition from its state with a true guard can be taken exactly
if the acceptance lets it. -/
theorem Outcome.exists_isApplicable_iff (o : Outcome options t set automata product roles task)
    {c : Situation} (hc : t.IsState c.state) {k : Nat} {a : Automaton Symbol}
    (ha : automata[k]? = some a) {tr : Transition Symbol} (htr : tr ∈ a.transitions)
    (hturn : c.turn = k + 1) (hsource : (c.places k).state = tr.source)
    (hguard : c.allows t set.actionSets tr) :
    (∃ op ∈ task.operators, IsOperatorOf options t set automata product k tr op ∧
        op.isApplicable (c.encode t roles) = true) ↔
      options.acceptance.permits (c.places k).accepted (a.accepts tr.source)
        (a.accepts tr.target) = true := by
  constructor
  · rintro ⟨op, -, ⟨b, vars, source, target, number?, tests, hb, hvars, hs, ht, rfl⟩, happ⟩
    rw [ha] at hb
    cases hb
    obtain ⟨-, -, hsacc, htacc⟩ := o.ends ha htr hs ht
    rw [hsacc, htacc]
    exact ((isApplicable_moveOperator hc.length_eq o.built hvars tr source target number? tests).mp
      happ).2.2.1
  · intro hpermits
    obtain ⟨i, vars, source, target, number?, tests, -, hvars, hs, ht, hop, htests⟩ :=
      o.exists_operator_of_allows ha htr hc hguard
    obtain ⟨hsid, -, hsacc, htacc⟩ := o.ends ha htr hs ht
    rw [hsacc, htacc] at hpermits
    exact ⟨_, List.mem_of_getElem? hop,
      ⟨a, vars, source, target, number?, tests, ha, hvars, hs, ht, rfl⟩,
      (isApplicable_moveOperator hc.length_eq o.built hvars tr source target number? tests).mpr
        ⟨htests, hsource.trans hsid.symm, hpermits, hturn⟩⟩

/-- If every transition sets the acceptance, it never keeps an automaton from a transition. -/
theorem Reached.permits_exact {numbers : List Nat} {c : Situation}
    (h : Reached .exact t set automata numbers c) {k : Nat} {a : Automaton Symbol}
    (ha : automata[k]? = some a) (target : Bool) :
    Acceptance.permits .exact (c.places k).accepted (a.accepts (c.places k).state) target =
      true := by
  have haccepted := ((Place.runs_exact_iff rfl).mp (h.places k a ha)).2
  rw [Acceptance.permits, haccepted, beq_self_eq_true, Bool.or_true]

/-- What lets an automaton take a transition from its state. -/
theorem Outcome.exists_isApplicable_iff_not_visited
    (o : Outcome options t set automata product roles task) {numbers : List Nat} {s : Assignment}
    (hrun : task.runAt? numbers = some s) {k : Nat} {a : Automaton Symbol} {vars : AutomatonVars}
    (ha : automata[k]? = some a) (hvars : product.vars[k]? = some vars) {tr : Transition Symbol}
    (htr : tr ∈ a.transitions) (hturn : Fact.holds s ⟨turnVar t set, k + 1⟩ = true)
    (hsource : Fact.holds s ⟨vars.position, tr.source⟩ = true)
    (hguard : tr.guard.eval
      (readOff t (usedVarsFrom t.vars.length set.actionSets.sets) s) = .ok true) :
    (∃ op ∈ task.operators, IsOperatorOf options t set automata product k tr op ∧
        op.isApplicable s = true) ↔
      ¬ (options.acceptance = .targetOnly ∧ a.accepts tr.target = true ∧
        a.accepts tr.source = false ∧ Visited task a vars.position numbers) := by
  cases hmode : options.acceptance with
  | exact =>
    obtain ⟨c, rfl, hreached⟩ := o.exists_reached hrun
    have hc := Task.isState_of_runAt? o.consistent hreached.run
    have hlen := hc.length_eq
    rw [o.built.holds_position_iff hlen hvars] at hsource
    rw [turnVar, Situation.holds_encode_iff hlen o.built.turn] at hturn
    rw [o.readOff_encode hlen] at hguard
    rw [o.exists_isApplicable_iff hc ha htr hturn hsource hguard, hmode]
    rw [hmode] at hreached
    have hpermits := hreached.permits_exact ha (a.accepts tr.target)
    rw [hsource] at hpermits
    simp [hpermits]
  | targetOnly =>
    obtain ⟨c, rfl, hreached, hvisited⟩ := o.exists_reached_visited hmode hrun
    have hc := Task.isState_of_runAt? o.consistent hreached.run
    have hlen := hc.length_eq
    have hpresent : a.accepts tr.source = true → (c.places k).accepted = true := fun haccepts =>
      (hvisited k a vars ha hvars).mpr ⟨numbers, _, _, List.prefix_refl _, hrun, hsource, haccepts⟩
    rw [o.built.holds_position_iff hlen hvars] at hsource
    rw [turnVar, Situation.holds_encode_iff hlen o.built.turn] at hturn
    rw [o.readOff_encode hlen] at hguard
    rw [o.exists_isApplicable_iff hc ha htr hturn hsource hguard, hmode,
      ← hvisited k a vars ha hvars]
    revert hpresent
    cases (c.places k).accepted <;> cases a.accepts tr.source <;> cases a.accepts tr.target <;>
      simp [Acceptance.permits]

end

end Temporal

open Temporal

/-- In the turn of an automaton, a transition from its state with a true guard can be taken, unless
only transitions into accepting states set the acceptance, and the transition leads back to an
accepting state from one that is not.

The state is any one that operators of the new task lead to, `readOff` says what a guard reads
there, and `Visited` that the automaton was in an accepting state before.  As for plans, the guards
have to keep their meaning. -/
theorem compileTemporal_takes_iff {options : CompileOptions} {translator : Translator} {t : Task}
    {set : PropertySet} {compiled : Compiled} {automata : List (Automaton Symbol)}
    {product : Product} (hcheck : t.check = .ok ())
    (h : compileTemporal options translator t set = .ok compiled)
    (hautomata : traverse (automatonOf translator) set.temporal = .ok automata)
    (hproduct : productOf options t set automata = .ok product)
    (hatoms : GuardsKeepMeaning options.softMark t set.actionSets automata) {numbers : List Nat}
    {s : Assignment} (hrun : compiled.task.runAt? numbers = some s) {k : Nat}
    {a : Automaton Symbol} {vars : AutomatonVars} (ha : automata[k]? = some a)
    (hvars : product.vars[k]? = some vars) {tr : Transition Symbol} (htr : tr ∈ a.transitions)
    (hturn : Fact.holds s ⟨turnVar t set, k + 1⟩ = true)
    (hsource : Fact.holds s ⟨vars.position, tr.source⟩ = true)
    (hguard : tr.guard.eval (readOff t compiled.usedVars s) = .ok true) :
    (∃ op ∈ compiled.task.operators, IsOperatorOf options t set automata product k tr op ∧
        op.isApplicable s = true) ↔
      ¬ (options.acceptance = .targetOnly ∧ a.accepts tr.target = true ∧
        a.accepts tr.source = false ∧ Visited compiled.task a vars.position numbers) := by
  have hne : set.temporal ≠ [] := by
    intro hnil
    rw [hnil] at hautomata
    cases hautomata
    cases ha
  obtain ⟨automata', product', hautomata', hproduct', htask, hused⟩ := exists_product hne h
  rw [hautomata] at hautomata'
  cases hautomata'
  rw [hproduct] at hproduct'
  cases hproduct'
  obtain ⟨roles, o⟩ := exists_outcome hcheck hne hautomata hproduct htask hatoms
  rw [hused] at hguard
  exact o.exists_isApplicable_iff_not_visited hrun ha hvars htr hturn hsource hguard

/-- Going forth and back. -/
def pacing : Task where
  metric := false
  vars := [⟨"var0", -1, ["Atom here", "Atom there"]⟩]
  mutexes := []
  init := [0]
  goal := []
  operators := [.ofEffects "forth" [.assign 0 (some 0) 1] 1,
    .ofEffects "back" [.assign 0 (some 1) 0] 1]
  rules := []

/-- A place has to be visited again and again. -/
def returns : PropertySet :=
  ⟨.empty, [], [⟨.ofName "returns", .unary .eventually (.atom (.ofName "here")), false⟩], []⟩

/-- The translator that knows an automaton for coming back. -/
def swinging : Translator := .ofTable [("<>c0", "accept_init :\nif\n:: (1) -> goto T1\nfi;\n" ++
  "T1 :\nif\n:: (1) -> goto accept_init\nfi;\n")]

/-- The automaton leaves its accepting state and comes back to it. -/
def pendulum : Automaton Symbol :=
  ⟨"returns", [⟨"accept_init", 0, true, true, [⟨0, 1, .const true⟩]⟩,
    ⟨"T1", 1, false, false, [⟨1, 0, .const true⟩]⟩], 0⟩

/-- Only transitions into accepting states set the acceptance. -/
def lazily : CompileOptions := ⟨true, false, true, .targetOnly, "soft_"⟩

theorem traverse_swinging : traverse (automatonOf swinging) returns.temporal = .ok [pendulum] :=
  eq_ok_of_toOption (by decide +kernel)

theorem exists_pacing_product : ∃ product vars,
    productOf lazily pacing returns [pendulum] = .ok product ∧ product.vars[0]? = some vars ∧
      vars.position = 2 := by
  obtain ⟨product, hproduct⟩ := exists_of_isOk (x := productOf lazily pacing returns [pendulum])
    (by decide +kernel)
  have hpositions : (productOf lazily pacing returns [pendulum]).toOption.map
      (fun product => product.vars.map AutomatonVars.position) = some [2] := by decide +kernel
  rw [hproduct] at hpositions
  have hpositions : product.vars.map AutomatonVars.position = [2] := Option.some.inj hpositions
  obtain ⟨vars, rest, hvars, hposition, -⟩ := List.map_eq_cons_iff.mp hpositions
  exact ⟨product, vars, hproduct, by rw [hvars]; rfl, hposition⟩

/-- The automaton can leave its accepting state. -/
theorem pacing_leaves : ∃ compiled product,
    compileTemporal lazily swinging pacing returns = .ok compiled ∧
      productOf lazily pacing returns [pendulum] = .ok product ∧
        compiled.task.runAt? [0] = some [1, 1, 0, 1] ∧ ∃ op ∈ compiled.task.operators,
          IsOperatorOf lazily pacing returns [pendulum] product 0 ⟨0, 1, .const true⟩ op ∧
            op.isApplicable [1, 1, 0, 1] = true := by
  obtain ⟨product, vars, hproduct, hvars, hposition⟩ := exists_pacing_product
  obtain ⟨compiled, h⟩ := exists_of_isOk (x := compileTemporal lazily swinging pacing returns)
    (by decide +kernel)
  have hrun : (compileTemporal lazily swinging pacing returns).toOption.bind
      (fun compiled => compiled.task.runAt? [0]) = some [1, 1, 0, 1] := by decide +kernel
  rw [h] at hrun
  have hrun : compiled.task.runAt? [0] = some [1, 1, 0, 1] := hrun
  have hatoms : GuardsKeepMeaning lazily.softMark pacing returns.actionSets [pendulum] :=
    fun a ha tr htr x hx => .inr (.inr (by decide))
  have htr : (⟨0, 1, .const true⟩ : Transition Symbol) ∈ pendulum.transitions := by decide
  have hsource : Fact.holds [1, 1, 0, 1] ⟨vars.position, 0⟩ = true := by
    rw [hposition]
    decide
  have hleaves := (compileTemporal_takes_iff (by decide) h traverse_swinging hproduct hatoms hrun
    (show [pendulum][0]? = some pendulum from rfl) hvars htr (by decide) hsource rfl).mpr
      (by rintro ⟨-, haccepts, -⟩; revert haccepts; decide)
  exact ⟨compiled, product, h, hproduct, hrun, hleaves⟩

/-- Once it has left its accepting state, the automaton cannot come back: no operator is applicable,
although a transition leads from its state and has a true guard. -/
theorem pacing_blocks : ∃ compiled product vars,
    pacing.check = .ok () ∧ traverse (automatonOf swinging) returns.temporal = .ok [pendulum] ∧
      compileTemporal lazily swinging pacing returns = .ok compiled ∧
      productOf lazily pacing returns [pendulum] = .ok product ∧ product.vars[0]? = some vars ∧
        (⟨1, 0, .const true⟩ : Transition Symbol) ∈ pendulum.transitions ∧
          compiled.task.runAt? [0, 2, 1] = some [0, 1, 1, 1] ∧
            Fact.holds [0, 1, 1, 1] ⟨turnVar pacing returns, 1⟩ = true ∧
              Fact.holds [0, 1, 1, 1] ⟨vars.position, 1⟩ = true ∧
                ∀ op ∈ compiled.task.operators, op.isApplicable [0, 1, 1, 1] = false := by
  obtain ⟨product, vars, hproduct, hvars, hposition⟩ := exists_pacing_product
  obtain ⟨compiled, h⟩ := exists_of_isOk (x := compileTemporal lazily swinging pacing returns)
    (by decide +kernel)
  have hrun : (compileTemporal lazily swinging pacing returns).toOption.bind
      (fun compiled => compiled.task.runAt? [0, 2, 1]) = some [0, 1, 1, 1] := by decide +kernel
  have hnone : (compileTemporal lazily swinging pacing returns).toOption.map
      (fun compiled => compiled.task.operators.all fun op => !op.isApplicable [0, 1, 1, 1]) =
        some true := by decide +kernel
  rw [h] at hrun hnone
  have hnone : (compiled.task.operators.all fun op => !op.isApplicable [0, 1, 1, 1]) = true :=
    Option.some.inj hnone
  refine ⟨compiled, product, vars, by decide, traverse_swinging, h, hproduct, hvars, by decide,
    hrun, by decide, by rw [hposition]; decide, fun op hop => ?_⟩
  simpa using List.all_eq_true.mp hnone op hop

end PlanConstraints

import PlanConstraints.Proofs.Temporal.Simulation
import PlanConstraints.Proofs.Temporal.StrictTurns

set_option autoImplicit false

/-!
# Plans of the new task

If goals are added and every transition sets the acceptance, the plans of the new task are the plans
of the task over which every automaton has an accepting run.  If no goals are added, a plan of the
task becomes one of the new task exactly if every automaton can follow it up to its last operator.
-/

namespace PlanConstraints

namespace Temporal

section

variable {options : CompileOptions} {t : Task} {set : PropertySet}
  {automata : List (Automaton Symbol)} {product : Product} {roles : List Role} {task : Task}

/-! ## With goals -/

/-- A plan of the new task is one of the task, over which every automaton has an accepting run. -/
theorem Outcome.isPlanTo_originals (o : Outcome options t set automata product roles task)
    (hgoals : options.addGoals = true) (hexact : options.acceptance = .exact)
    {numbers : List Nat} {s : Assignment} (h : task.IsPlanTo numbers s) :
    (∃ s', t.IsPlanTo (t.originals numbers) s') ∧ ∀ a ∈ automata, ∃ q,
      Runs a.Moves a.initial (observations t set.actionSets (t.originals numbers)) q ∧
        a.accepts q = true := by
  obtain ⟨hrun, hgoal⟩ := h
  obtain ⟨c, rfl, hreached⟩ := o.exists_reached hrun
  have hlen := (Task.isState_of_runAt? o.consistent hreached.run).length_eq
  obtain ⟨hgoal, hall⟩ := (o.isGoal_encode hlen).mp hgoal
  obtain ⟨hturn, haccepted⟩ := hall hgoals
  rw [← hreached.path]
  refine ⟨⟨c.state, hreached.run, hgoal⟩, fun a ha => ?_⟩
  obtain ⟨k, hk⟩ := List.mem_iff_getElem?.mp ha
  have hruns := hreached.places k a hk
  rw [hexact, Situation.observed, if_pos (.inl hturn),
    ← length_observations t set.actionSets c.path, List.take_length] at hruns
  obtain ⟨hruns, hplace⟩ := (Place.runs_exact_iff rfl).mp hruns
  exact ⟨_, hruns, hplace ▸ haccepted k (List.getElem?_eq_some_iff.mp hk).1⟩

/-- A plan of the task over which every automaton has an accepting run is part of one of the new
task. -/
theorem Outcome.exists_isPlanTo (o : Outcome options t set automata product roles task)
    (hexact : options.acceptance = .exact) {path : List Nat} {s : Assignment}
    (h : t.IsPlanTo path s)
    (hruns : ∀ a ∈ automata, ∃ q,
      Runs a.Moves a.initial (observations t set.actionSets path) q ∧ a.accepts q = true) :
    ∃ numbers s', task.IsPlanTo numbers s' ∧ t.originals numbers = path := by
  have hplaces : ∀ k : Nat, ∃ place : Place, ∀ a, automata[k]? = some a →
      Runs (Place.Moves options.acceptance a) a.start (observations t set.actionSets path) place ∧
        place.accepted = true := by
    intro k
    cases ha : automata[k]? with
    | none => exact ⟨⟨0, false⟩, fun _ h => by cases h⟩
    | some a =>
      obtain ⟨q, hq, haccepts⟩ := hruns a (List.mem_of_getElem? ha)
      refine ⟨⟨q, true⟩, fun b hb => ?_⟩
      cases hb
      rw [hexact]
      exact ⟨(Place.runs_exact_iff rfl).mpr ⟨hq, haccepts.symm⟩, rfl⟩
  choose places hplaces using hplaces
  obtain ⟨numbers, c, hrun, horiginals, -, hstate, hturn, hsame⟩ :=
    o.exists_runAt?_of_runs h.1 fun k a ha => (hplaces k a ha).1
  have hlen := (Task.isState_of_runAt? o.consistent h.1).length_eq
  refine ⟨numbers, _, ⟨hrun, (o.isGoal_encode (hstate ▸ hlen)).mpr ⟨?_, fun _ => ⟨hturn, ?_⟩⟩⟩,
    horiginals⟩
  · rw [hstate]
    exact h.2
  · intro k hk
    rw [hsame k hk]
    exact (hplaces k _ (List.getElem?_eq_getElem hk)).2

/-! ## Without goals -/

/-- The operators of the task in a run of the new one are followed by every automaton, up to the
last one. -/
theorem Outcome.runs_dropLast (o : Outcome options t set automata product roles task)
    {numbers : List Nat} {s : Assignment} (h : task.runAt? numbers = some s)
    {a : Automaton Symbol} (ha : a ∈ automata) :
    ∃ place, Runs (Place.Moves options.acceptance a) a.start
      (observations t set.actionSets (t.originals numbers)).dropLast place := by
  obtain ⟨c, rfl, hreached⟩ := o.exists_reached h
  obtain ⟨k, hk⟩ := List.mem_iff_getElem?.mp ha
  obtain ⟨place, hplace⟩ := (hreached.places k a hk).take (c.path.length - 1)
  refine ⟨place, ?_⟩
  have hle : c.path.length - 1 ≤ c.observed k := by
    unfold Situation.observed
    split <;> omega
  rw [List.take_take, Nat.min_eq_left hle] at hplace
  rw [← hreached.path, List.dropLast_eq_take, length_observations]
  exact hplace

/-- A run of the task that every automaton can follow, up to the last operator, is part of one of
the new task. -/
theorem Outcome.exists_runAt?_of_runs_dropLast
    (o : Outcome options t set automata product roles task) {path : List Nat} {s : Assignment}
    (h : t.runAt? path = some s)
    (hruns : ∀ a ∈ automata, ∃ place, Runs (Place.Moves options.acceptance a) a.start
      (observations t set.actionSets path).dropLast place) :
    ∃ (numbers : List Nat) (c : Situation), task.runAt? numbers = some (c.encode t roles) ∧
      t.originals numbers = path ∧ c.state = s := by
  rcases List.eq_nil_or_concat path with rfl | ⟨front, last, rfl⟩
  · cases h
    exact ⟨[], start t automata, congrArg some o.init, rfl, rfl⟩
  · rw [List.concat_eq_append] at h hruns ⊢
    obtain ⟨s', op, hfront, hop, happ, rfl⟩ := Task.runAt?_concat_eq_some_iff.mp h
    rw [observations_concat, List.dropLast_concat] at hruns
    have hplaces : ∀ k : Nat, ∃ place : Place, ∀ a, automata[k]? = some a →
        Runs (Place.Moves options.acceptance a) a.start (observations t set.actionSets front)
          place := by
      intro k
      cases ha : automata[k]? with
      | none => exact ⟨⟨0, false⟩, fun _ h => by cases h⟩
      | some a =>
        obtain ⟨place, hplace⟩ := hruns a (List.mem_of_getElem? ha)
        refine ⟨place, fun b hb => ?_⟩
        cases hb
        exact hplace
    choose places hplaces using hplaces
    obtain ⟨numbers, c, hnumbers, horiginals, hpath, rfl, hturn, -⟩ :=
      o.exists_runAt?_of_runs hfront hplaces
    have hc := Task.isState_of_runAt? o.consistent hfront
    refine ⟨_, _, o.runAt?_act hc hnumbers hop happ hturn, ?_, rfl⟩
    rw [Task.originals_concat, if_pos (List.getElem?_eq_some_iff.mp hop).1, horiginals]

end

end Temporal

open Temporal

/-- With goals, and if every transition sets the acceptance, the plans of the new task are the plans
of the task over which every automaton has an accepting run; the operators of the task and those of
the automata take strict turns.

The turns need no hypothesis on the guards.  For the plans, `GuardsKeepMeaning` bears the load: it
excludes an atom that is neither a set nor a fact of the task, but that the mark of soft goals turns
into a fact of the new task, so that an operator gets a condition on the acceptance that it assigns
(`journey_blocked`). -/
theorem compileTemporal_plans {options : CompileOptions} {translator : Translator} {t : Task}
    {set : PropertySet} {compiled : Compiled} (hcheck : t.check = .ok ())
    (hne : set.temporal ≠ []) (hgoals : options.addGoals = true)
    (hexact : options.acceptance = .exact)
    (h : compileTemporal options translator t set = .ok compiled) :
    ∃ automata product, traverse (automatonOf translator) set.temporal = .ok automata ∧
      productOf options t set automata = .ok product ∧
      (GuardsKeepMeaning options.softMark t set.actionSets automata →
        ∀ path, (∃ numbers s, compiled.task.IsPlanTo numbers s ∧ t.originals numbers = path) ↔
          (∃ s, t.IsPlanTo path s) ∧ ∀ a ∈ automata, ∃ q,
            Runs a.Moves a.initial (observations t set.actionSets path) q ∧ a.accepts q = true) ∧
      ∀ numbers s, compiled.task.runAt? numbers = some s →
        ∀ (i number : Nat), numbers[i]? = some number →
          (i % (set.temporal.length + 1) = 0 ∧ number < t.operators.length) ∨
            ∃ k a tr op, i % (set.temporal.length + 1) = k + 1 ∧ t.operators.length ≤ number ∧
              automata[k]? = some a ∧ tr ∈ a.transitions ∧
                compiled.task.operators[number]? = some op ∧
                  IsOperatorOf options t set automata product k tr op := by
  obtain ⟨automata, product, hautomata, hproduct, htask, -⟩ := exists_product hne h
  refine ⟨automata, product, hautomata, hproduct, fun hatoms path => ?_, ?_⟩
  · obtain ⟨roles, o⟩ := exists_outcome hcheck hne hautomata hproduct htask hatoms
    constructor
    · rintro ⟨numbers, s, hplan, rfl⟩
      exact o.isPlanTo_originals hgoals hexact hplan
    · rintro ⟨⟨s, hplan⟩, hruns⟩
      exact o.exists_isPlanTo hexact hplan hruns
  · intro numbers s hrun i number hi
    rw [htask] at hrun ⊢
    rw [← length_traverse hautomata]
    exact takesTurns_of_runAt? (t.check_eq_ok_iff.mp hcheck) hproduct hrun hi

/-- Two steps, each to the next place. -/
def journey : Task where
  metric := false
  vars := [⟨"var0", -1, ["Atom a", "Atom b", "Atom c"]⟩]
  mutexes := []
  init := [0]
  goal := [⟨0, 2⟩]
  operators := [.ofEffects "go x" [.assign 0 (some 0) 1] 1,
    .ofEffects "go y" [.assign 0 (some 1) 2] 1]
  rules := []

/-- A place has to be visited. -/
def visitsB : PropertySet :=
  ⟨.empty, [], [⟨.ofName "visits", .unary .eventually (.atom (.ofName "b")), false⟩], []⟩

/-- The translator that knows an automaton for visits. -/
def waiting : Translator := .ofTable [("<>c0", "T0_init :\nif\n:: (c0) -> goto accept_all\n" ++
  ":: (1) -> goto T0_init\nfi;\naccept_all :\nskip\n")]

/-- The automaton for visits. -/
def waitingForB : Automaton Symbol where
  name := "visits"
  states := [⟨"T0_init", 0, true, false, [⟨0, 1, .atom (.ofName "b")⟩, ⟨0, 0, .const true⟩]⟩,
    ⟨"accept_all", 1, false, true, [⟨1, 1, .const true⟩]⟩]
  initial := 0

theorem traverse_waiting : traverse (automatonOf waiting) visitsB.temporal = .ok [waitingForB] :=
  eq_ok_of_toOption (by decide +kernel)

/-- The journey visits the place on its way. -/
theorem journey_plans : ∃ compiled,
    compileTemporal ⟨true, false, true, .exact, "soft_"⟩ waiting journey visitsB = .ok compiled ∧
      ∃ numbers s, compiled.task.IsPlanTo numbers s ∧ journey.originals numbers = [0, 1] := by
  obtain ⟨compiled, h⟩ := exists_of_isOk
    (x := compileTemporal ⟨true, false, true, .exact, "soft_"⟩ waiting journey visitsB)
    (by decide +kernel)
  obtain ⟨automata, product, hautomata, -, hplans, -⟩ :=
    compileTemporal_plans (by decide) (by decide) rfl rfl h
  rw [traverse_waiting] at hautomata
  cases hautomata
  have hatoms : GuardsKeepMeaning "soft_" journey visitsB.actionSets [waitingForB] :=
    fun a ha tr htr x hx => .inr (.inr (by decide))
  refine ⟨compiled, h, (hplans hatoms [0, 1]).mpr ⟨⟨[2], rfl, rfl⟩, fun a ha => ?_⟩⟩
  cases List.mem_singleton.mp ha
  have hb : observeAfter journey visitsB.actionSets [0] (.ofName "b") = true := by decide +kernel
  exact ⟨1, ⟨1, ⟨⟨0, 1, .atom (.ofName "b")⟩, by decide, rfl, rfl, congrArg Except.ok hb⟩, 1,
    ⟨⟨1, 1, .const true⟩, by decide, rfl, rfl, rfl⟩, rfl⟩, rfl⟩

/-- A soft property that rejects the acceptance of its own automaton. -/
def rejectsItself : PropertySet :=
  ⟨.empty, [], [⟨.ofName "p", .unary .always (.neg (.atom (.ofName "accepting(p)"))), true⟩], []⟩

/-- The translator that knows an automaton for rejecting. -/
def rejecting : Translator :=
  .ofTable [("[](!c0)", "accept_init :\nif\n:: (!c0) -> goto accept_init\nfi;\n")]

/-- The automaton for rejecting its own acceptance. -/
def rejectingItself : Automaton Symbol where
  name := "p"
  states := [⟨"accept_init", 0, true, true, [⟨0, 0, .neg (.atom (.ofName "accepting(p)"))⟩]⟩]
  initial := 0

theorem traverse_rejecting : traverse (automatonOf rejecting) rejectsItself.temporal =
    .ok [rejectingItself] :=
  eq_ok_of_toOption (by decide +kernel)

/-- If the mark of soft goals is that of facts, the only transition of the automaton has a condition
on the acceptance that it assigns, and the journey is no part of a plan of the new task, though the
automaton has an accepting run over it. -/
theorem journey_blocked : journey.check = .ok () ∧ (∃ s, journey.IsPlanTo [0, 1] s) ∧
    traverse (automatonOf rejecting) rejectsItself.temporal = .ok [rejectingItself] ∧
      (∃ q, Runs rejectingItself.Moves rejectingItself.initial
        (observations journey rejectsItself.actionSets [0, 1]) q ∧
          rejectingItself.accepts q = true) ∧
        ∃ compiled,
          compileTemporal ⟨true, false, true, .exact, "Atom "⟩ rejecting journey rejectsItself =
              .ok compiled ∧
            ¬ ∃ numbers s, compiled.task.IsPlanTo numbers s ∧
              journey.originals numbers = [0, 1] := by
  have hstops : (compileTemporal ⟨true, false, true, .exact, "Atom "⟩ rejecting journey
      rejectsItself).toOption.any (fun compiled => ∀ i < compiled.task.operators.length,
        ∀ j < compiled.task.operators.length, compiled.task.runAt? [i, j] = none) = true := by
    decide +kernel
  obtain ⟨compiled, h, hnone⟩ := exists_of_toOption_any hstops
  have hmoves : ∀ path, (observeAfter journey rejectsItself.actionSets path
      (.ofName "accepting(p)")) = false → rejectingItself.Moves
        (observeAfter journey rejectsItself.actionSets path) 0 0 := fun path hfalse =>
    ⟨⟨0, 0, .neg (.atom (.ofName "accepting(p)"))⟩, by decide, rfl, rfl, by
      rw [Formula.eval, Formula.eval, hfalse]
      rfl⟩
  refine ⟨by decide, ⟨[2], rfl, rfl⟩, traverse_rejecting, ⟨0, ?_, rfl⟩, compiled, h, ?_⟩
  · exact ⟨0, hmoves [0] (by decide +kernel), 0, hmoves [0, 1] (by decide +kernel), rfl⟩
  · rintro ⟨numbers, s, ⟨hrun, -⟩, horiginals⟩
    have htwo : 2 ≤ numbers.length := by
      rw [← show (journey.originals numbers).length = 2 from congrArg List.length horiginals]
      exact List.length_filter_le _ numbers
    obtain ⟨i, tail, rfl⟩ := List.exists_cons_of_length_pos (Nat.lt_of_lt_of_le Nat.two_pos htwo)
    obtain ⟨j, rest, rfl⟩ := List.exists_cons_of_length_pos (Nat.lt_of_succ_lt_succ htwo)
    change compiled.task.runAt? ([i, j] ++ rest) = some s at hrun
    obtain ⟨s', hs'⟩ := Task.exists_runAt?_of_append hrun
    have hlt := Task.lt_of_runAt? hs'
    have hstuck := of_decide_eq_true hnone i (hlt i (by simp)) j (hlt j (by simp))
    rw [hstuck] at hs'
    cases hs'

/-- Without goals, a plan of the task becomes one of the new task exactly if every automaton can
follow it up to its last operator: an automaton without a transition to take stops the turns.

Both modes of acceptance are covered: `Place.Moves` says what each allows.  As for plans with goals,
the guards have to keep their meaning. -/
theorem compileTemporal_covers_iff {options : CompileOptions} {translator : Translator} {t : Task}
    {set : PropertySet} {compiled : Compiled} {automata : List (Automaton Symbol)}
    (hcheck : t.check = .ok ()) (hne : set.temporal ≠ []) (hgoals : options.addGoals = false)
    (h : compileTemporal options translator t set = .ok compiled)
    (hautomata : traverse (automatonOf translator) set.temporal = .ok automata)
    (hatoms : GuardsKeepMeaning options.softMark t set.actionSets automata)
    {path : List Nat} {s : Assignment} (hplan : t.IsPlanTo path s) :
    (∃ numbers s', compiled.task.IsPlanTo numbers s' ∧ t.originals numbers = path) ↔
      ∀ a ∈ automata, ∃ place, Runs (Place.Moves options.acceptance a) a.start
        (observations t set.actionSets path).dropLast place := by
  obtain ⟨automata', product, hautomata', hproduct, htask, -⟩ := exists_product hne h
  rw [hautomata] at hautomata'
  cases hautomata'
  obtain ⟨roles, o⟩ := exists_outcome hcheck hne hautomata hproduct htask hatoms
  constructor
  · rintro ⟨numbers, s', hplan', rfl⟩ a ha
    exact o.runs_dropLast hplan'.1 ha
  · intro hruns
    obtain ⟨numbers, c, hnumbers, horiginals, rfl⟩ := o.exists_runAt?_of_runs_dropLast hplan.1 hruns
    have hlen := (Task.isState_of_runAt? o.consistent hplan.1).length_eq
    refine ⟨numbers, _, ⟨hnumbers, (o.isGoal_encode hlen).mpr ⟨hplan.2, fun hadd => ?_⟩⟩,
      horiginals⟩
    rw [hgoals] at hadd
    cases hadd

/-- The automaton for visits can follow the journey. -/
theorem journey_covered : ∃ compiled,
    compileTemporal ⟨false, false, true, .exact, "soft_"⟩ waiting journey visitsB = .ok compiled ∧
      ∃ numbers s, compiled.task.IsPlanTo numbers s ∧ journey.originals numbers = [0, 1] := by
  obtain ⟨compiled, h⟩ := exists_of_isOk
    (x := compileTemporal ⟨false, false, true, .exact, "soft_"⟩ waiting journey visitsB)
    (by decide +kernel)
  have hplan : journey.IsPlanTo [0, 1] [2] := ⟨rfl, rfl⟩
  refine ⟨compiled, h, (compileTemporal_covers_iff (by decide) (by decide) rfl h traverse_waiting
    (fun a ha tr htr x hx => .inr (.inr (by decide))) hplan).mpr fun a ha => ?_⟩
  cases List.mem_singleton.mp ha
  have hb : observeAfter journey visitsB.actionSets [0] (.ofName "b") = true := by decide +kernel
  exact ⟨⟨1, true⟩, ⟨1, true⟩,
    ⟨⟨0, 1, .atom (.ofName "b")⟩, by decide, rfl, congrArg Except.ok hb, rfl, rfl⟩, rfl⟩

/-- A place must not be left. -/
def staysAtA : PropertySet :=
  ⟨.empty, [], [⟨.ofName "stays", .unary .always (.atom (.ofName "a")), true⟩], []⟩

/-- The translator that knows an automaton for staying. -/
def staying : Translator :=
  .ofTable [("[]c0", "accept_init :\nif\n:: (c0) -> goto accept_init\nfi;\n")]

/-- The automaton for staying. -/
def stayingAtA : Automaton Symbol :=
  ⟨"stays", [⟨"accept_init", 0, true, true, [⟨0, 0, .atom (.ofName "a")⟩]⟩], 0⟩

/-- An automaton that has no transition to take when the place is left removes the journey, though
nothing requires the property. -/
theorem journey_not_covered : journey.check = .ok () ∧ (∃ s, journey.IsPlanTo [0, 1] s) ∧
    ∃ compiled,
      compileTemporal ⟨false, false, true, .exact, "soft_"⟩ staying journey staysAtA =
          .ok compiled ∧
        ¬ ∃ numbers s, compiled.task.IsPlanTo numbers s ∧ journey.originals numbers = [0, 1] := by
  obtain ⟨compiled, h⟩ := exists_of_isOk
    (x := compileTemporal ⟨false, false, true, .exact, "soft_"⟩ staying journey staysAtA)
    (by decide +kernel)
  refine ⟨by decide, ⟨[2], rfl, rfl⟩, compiled, h, ?_⟩
  rintro ⟨numbers, s, ⟨hrun, -⟩, horiginals⟩
  obtain ⟨automata, product, hautomata, hproduct, htask, -⟩ := exists_product (by decide) h
  have hstaying : traverse (automatonOf staying) staysAtA.temporal = .ok [stayingAtA] :=
    eq_ok_of_toOption (by decide +kernel)
  rw [hstaying] at hautomata
  cases hautomata
  obtain ⟨roles, o⟩ := exists_outcome (by decide) (by decide) hstaying hproduct htask
    fun a ha tr htr x hx => .inr (.inr (by decide))
  have hruns := o.runs_dropLast hrun (List.mem_singleton_self stayingAtA)
  rw [horiginals] at hruns
  obtain ⟨place, mid, ⟨tr, htr, -, hguard, -, -⟩, -⟩ := hruns
  have hguards : ∀ tr ∈ stayingAtA.transitions, tr.guard = .atom (.ofName "a") := by decide
  have hleft : observeAfter journey staysAtA.actionSets [0] (.ofName "a") = false := by
    decide +kernel
  rw [hguards tr htr] at hguard
  exact Bool.false_ne_true (hleft.symm.trans (Except.ok.inj hguard))

end PlanConstraints

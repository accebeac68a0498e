import PlanConstraints.Proofs.Task.Reading
import PlanConstraints.Proofs.Task.RoundTrip

set_option autoImplicit false

/-!
# Values of a task that was read

A file speaks of variables and values in its initial state, its goal, its operators, its mutex
groups and its rules.  What the first three say is checked when the file is read, the rest is taken
as it stands: whether a task that was read speaks of existing values only is decided by its mutex
groups and its rules (`facts_of_read`), and any may stand there (`WellFormed.withUnchecked`).
-/

namespace PlanConstraints

/-- The facts of which a rule speaks. -/
def Rule.facts (r : Rule) : List Fact :=
  r.conditions ++ (r.pre.map fun value => ⟨r.var, value⟩).toList ++ [⟨r.var, r.post⟩]

namespace Task

/-- The facts of the initial state. -/
def initFacts (t : Task) : List Fact := t.init.zipIdx.map fun x => ⟨x.2, x.1⟩

/-- The facts of which the initial state, the goal and the operators speak. -/
def checkedFacts (t : Task) : List Fact :=
  t.initFacts ++ t.goal ++ t.operators.flatMap operatorFacts

/-- The facts of which the mutex groups and the rules speak. -/
def uncheckedFacts (t : Task) : List Fact := t.mutexes.flatten ++ t.rules.flatMap Rule.facts

/-- All facts of which the task speaks. -/
def facts (t : Task) : List Fact := t.checkedFacts ++ t.uncheckedFacts

variable {t : Task}

theorem mem_initFacts {f : Fact} : f ∈ t.initFacts ↔ t.init[f.var]? = some f.value := by
  rw [initFacts, List.mem_map]
  constructor
  · rintro ⟨⟨value, var⟩, hmem, rfl⟩
    exact List.mem_zipIdx_iff_getElem?.mp hmem
  · intro h
    exact ⟨(f.value, f.var), List.mem_zipIdx_iff_getElem?.mpr h, rfl⟩

/-- A consistent task is one whose checked facts exist, with a complete initial state and no
variable that is always the same. -/
theorem consistent_iff : t.Consistent ↔ t.init.length = t.vars.length ∧
    (∀ v ∈ t.vars, 2 ≤ v.values.length) ∧ ∀ f ∈ t.checkedFacts, t.InDomain f := by
  simp only [checkedFacts, List.mem_append, List.mem_flatMap, mem_initFacts]
  constructor
  · intro h
    refine ⟨h.length_init, h.two_le, ?_⟩
    rintro f ((hf | hf) | ⟨op, hop, hf⟩)
    · exact h.init f.var f.value hf
    · exact h.goal f hf
    · exact h.operator op hop f hf
  · rintro ⟨hlength, htwo, hfacts⟩
    exact ⟨hlength, htwo, fun var value h => hfacts ⟨var, value⟩ (.inl (.inl h)),
      fun f hf => hfacts f (.inl (.inr hf)), fun op hop f hf => hfacts f (.inr ⟨op, hop, hf⟩)⟩

/-- Any mutex groups and rules whose numbers have a written form may stand in a well-formed task. -/
theorem WellFormed.withUnchecked (h : t.WellFormed) {mutexes : List (List Fact)} {rules : List Rule}
    (hmutexes : mutexes.length < 2 ^ 64 ∧ ∀ group ∈ mutexes, LegibleFacts group)
    (hrules : rules.length < 2 ^ 64 ∧ ∀ r ∈ rules, r.Legible) :
    ({ t with mutexes := mutexes, rules := rules } : Task).WellFormed where
  consistent :=
    { length_init := h.consistent.length_init
      two_le := h.consistent.two_le
      init := h.consistent.init
      goal := h.consistent.goal
      operator := h.consistent.operator }
  legible :=
    { vars := h.legible.vars
      mutexCount := hmutexes.1
      mutexes := hmutexes.2
      operators := h.legible.operators
      ruleCount := hrules.1
      rules := hrules.2 }

end Task

namespace TaskFile

/-- The initial state, the goal and the operators of a task that was read speak of existing values.
The whole task does so exactly if its mutex groups and its rules do.

Nothing is asked but that the task was read.  The second part says what the check leaves out, and
that it leaves out nothing else. -/
theorem facts_of_read {input : Input} {t : Task} (h : read input = .ok t) :
    (∀ f ∈ t.checkedFacts, t.InDomain f) ∧
      ((∀ f ∈ t.facts, t.InDomain f) ↔ ∀ f ∈ t.uncheckedFacts, t.InDomain f) := by
  have hchecked := (Task.consistent_iff.mp (wellFormed_of_read h).consistent).2.2
  refine ⟨hchecked, ?_⟩
  rw [Task.facts, List.forall_mem_append]
  exact and_iff_right hchecked

end TaskFile

/-! ## A lamp -/

/-- A lamp is switched on, and a rule tells whether the room is lit. -/
def lamp : Task where
  metric := false
  vars := [⟨"var0", -1, ["Atom off", "Atom on"]⟩, ⟨"var1", 0, ["Atom lit", "NegatedAtom lit"]⟩]
  mutexes := [[⟨0, 0⟩, ⟨0, 1⟩]]
  init := [0, 1]
  goal := [⟨1, 0⟩]
  operators := [⟨"switch", [⟨1, 1⟩], [⟨0, some 0, 1, [⟨0, 0⟩]⟩], 1⟩]
  rules := [⟨[⟨0, 1⟩], 1, some 1, 0⟩]

theorem wellFormed_lamp : lamp.WellFormed := by decide

/-- The file of the lamp speaks of existing values at all nine places. -/
theorem lamp_facts : TaskFile.read ⟨lamp.text, none⟩ = .ok lamp ∧
    lamp.facts.length = 12 ∧ ∀ f ∈ lamp.facts, lamp.InDomain f := by
  have hread := TaskFile.read_text wellFormed_lamp (by decide) none
  refine ⟨hread, by decide, (TaskFile.facts_of_read hread).2.mpr ?_⟩
  exact (Task.checkFacts_eq_ok_iff lamp lamp.uncheckedFacts).mp (by decide)

/-- The lamp with a third value in a mutex group and a rule on a third variable. -/
def strayLamp : Task :=
  { lamp with mutexes := [[⟨0, 0⟩, ⟨0, 2⟩]], rules := [⟨[⟨0, 1⟩], 2, none, 0⟩] }

/-- The file of a task is read although a mutex group speaks of a value, and a rule of a variable,
that does not exist. -/
theorem strayLamp_facts : TaskFile.read ⟨strayLamp.text, none⟩ = .ok strayLamp ∧
    (⟨0, 2⟩ ∈ strayLamp.facts ∧ ¬ strayLamp.InDomain ⟨0, 2⟩) ∧
      (⟨2, 0⟩ ∈ strayLamp.facts ∧ ¬ strayLamp.InDomain ⟨2, 0⟩) := by
  have hwell : strayLamp.WellFormed :=
    wellFormed_lamp.withUnchecked ⟨by decide, by decide⟩ ⟨by decide, by decide⟩
  simp only [← Task.checkFact_eq_ok_iff]
  exact ⟨TaskFile.read_text hwell (by decide) none, ⟨by decide, by decide⟩, by decide, by decide⟩

end PlanConstraints

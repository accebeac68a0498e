import PlanConstraints.Proofs.Compile.PhasedPlans
import PlanConstraints.Proofs.Compile.StandardForm
import PlanConstraints.Proofs.Temporal.Plans
import PlanConstraints.Proofs.Temporal.StandardForm

set_option autoImplicit false

/-!
# What compilations of either dialect keep

The compiled task is the task with additions (`compile_appendsTo`), and if the operators of the task
are in standard form, so are those of the compiled one, unless a mark of soft goals makes a fact of
the acceptance of an automaton (`isStandard_compile`).
-/

namespace PlanConstraints

variable {dialect : Dialect} {options : CompileOptions} {translator : Translator} {t : Task}
  {set : PropertySet} {compiled : Compiled}

/-! ## Additions -/

/-- A compilation only adds to the task: variables, initial values, goals and operators behind those
of the task, marks of soft goals to its values, and conditions and effects on new variables to its
operators.  New operators have effects on new variables only.

A value gets the mark if it ends like a soft goal and does not start with the mark
(`markValue_cases`), so that it gets it only once (`markValue_markValue`); with automata,
`Dialect.valueName` leaves all values as they are.  Neither the options nor what the translator
answers matters. -/
theorem compile_appendsTo (h : compile dialect options translator t set = .ok compiled) :
    Task.AppendsTo (dialect.valueName options set) t compiled.task := by
  cases dialect with
  | actionSets => exact appendsTo_compileActionSets h
  | temporal => exact appendsTo_compileTemporal h

/-- The goal of the way is soft, too. -/
def commuteToSoftGoal : PropertySet := { commuteByBus with softGoals := ["at-work"] }

/-- The variable of the way keeps its place, and its second value is marked. -/
theorem commute_appendsTo : ∃ compiled,
    compile .actionSets ⟨true, true, false, .exact, "soft_"⟩ avoiding commute commuteToSoftGoal =
        .ok compiled ∧
      [⟨"var0", -1, ["Atom at-home", "soft_Atom at-work"]⟩] <+: compiled.task.vars ∧
        [0] <+: compiled.task.init ∧ [⟨0, 1⟩] <+: compiled.task.goal := by
  obtain ⟨compiled, h⟩ := exists_of_isOk
    (x := compile .actionSets ⟨true, true, false, .exact, "soft_"⟩ avoiding commute
      commuteToSoftGoal) (by decide +kernel)
  have happends := compile_appendsTo h
  have hmarked : commute.vars.map (Variable.renameValues
      (Dialect.actionSets.valueName ⟨true, true, false, .exact, "soft_"⟩ commuteToSoftGoal)) =
        [⟨"var0", -1, ["Atom at-home", "soft_Atom at-work"]⟩] := by decide
  exact ⟨compiled, h, hmarked ▸ happends.vars, happends.init, happends.goal⟩

/-! ## Standard form -/

/-- A compilation keeps operators in standard form.  With automata, the atoms of the properties have
to keep their meaning: they name sets or facts of the task, or else the mark of soft goals is none
of facts.  Over action sets nothing is asked of the mark, since conditions are on the use of sets.
-/
theorem isStandard_compile (hcheck : t.check = .ok ()) (hops : ∀ op ∈ t.operators, op.IsStandard)
    (hatoms : dialect = .temporal → ∀ p ∈ set.temporal, ∀ a ∈ p.formula.atoms,
      KeepsMeaning options.softMark t set.actionSets a)
    (h : compile dialect options translator t set = .ok compiled) :
    ∀ op ∈ compiled.task.operators, op.IsStandard := by
  cases dialect with
  | actionSets => exact isStandard_compileActionSets (t.check_eq_ok_iff.mp hcheck) hops h
  | temporal => exact isStandard_compileTemporal hcheck hops (hatoms rfl) h

/-- The operators of the journey, and those of the automaton for visits, are in standard form. -/
theorem journey_isStandard : ∃ compiled,
    compile .temporal ⟨true, false, true, .exact, "soft_"⟩ waiting journey visitsB = .ok compiled ∧
      ∀ op ∈ compiled.task.operators, op.IsStandard := by
  obtain ⟨compiled, h⟩ := exists_of_isOk
    (x := compile .temporal ⟨true, false, true, .exact, "soft_"⟩ waiting journey visitsB)
    (by decide +kernel)
  exact ⟨compiled, h, isStandard_compile (by decide) (by decide)
    (fun _ p hp a ha => .inr (.inr (by decide))) h⟩

/-- If the mark of soft goals is that of facts, a property can speak of the acceptance of its own
automaton: then a transition has a condition on the variable that it assigns. -/
theorem journey_not_isStandard :
    journey.check = .ok () ∧ (∀ op ∈ journey.operators, op.IsStandard) ∧
      (compileFile ⟨true, false, true, .exact, "Atom "⟩ waiting journey
        (.temporal, .ofText "soft-property p\n<> accepting(p)\n")).map
          (fun t => decide (∀ op ∈ t.operators, op.IsStandard)) = some false := by
  decide +kernel

end PlanConstraints

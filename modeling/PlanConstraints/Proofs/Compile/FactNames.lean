import PlanConstraints.Proofs.Compile.RoundTrip
import PlanConstraints.Proofs.Task.FactNames
import PlanConstraints.Proofs.Temporal.Additions

set_option autoImplicit false

/-!
# Facts by name in compiled tasks

The values of the variables that a compilation adds are no facts.  Where values of the task are
marked as soft goals, their names change: such a value is no fact any more.  So a name means in the
compiled task what it means in the task with its soft goals marked, and this is what it means in the
task unless its value is marked (`compile_findFact?`).
-/

namespace PlanConstraints

open Temporal (IsPlainMark)

/-! ## Names of new values -/

theorem startsPlain_usedValues (set : String) : ∀ value ∈ usedValues set, StartsPlain value :=
  List.forall_mem_cons.mpr ⟨startsPlain_append (by decide) (by decide) set,
    List.forall_mem_singleton.mpr (startsPlain_append (by decide) (by decide) set)⟩

theorem startsPlain_satisfactionValues (p : Property) :
    ∀ value ∈ satisfactionValues p, StartsPlain value := by
  unfold satisfactionValues Property.kind
  cases p.soft
  · exact List.forall_mem_cons.mpr ⟨startsPlain_append (by decide) (by decide) _,
      List.forall_mem_singleton.mpr (startsPlain_append (by decide) (by decide) _)⟩
  · exact List.forall_mem_cons.mpr ⟨startsPlain_append (by decide) (by decide) _,
      List.forall_mem_singleton.mpr (startsPlain_append (by decide) (by decide) _)⟩

/-! ## Action sets -/

theorem addsValues_recordSets (t : Task) (count : Nat) (sets : ActionSets) :
    t.AddsValues StartsPlain (recordSets t count sets).task := by
  rw [task_recordSets]
  refine ⟨_, rfl, fun v hv => ?_⟩
  obtain ⟨s, -, hvalues⟩ := values_of_mem_recordVariables hv
  rw [hvalues]
  exact startsPlain_usedValues s.name

theorem addsValues_addSatisfaction (addGoals : Bool) (t : Task) (p : Property) :
    t.AddsValues StartsPlain (addSatisfaction addGoals t p) :=
  ⟨_, Phases.vars_addSatisfaction addGoals t p,
    List.forall_mem_singleton.mpr (startsPlain_satisfactionValues p)⟩

theorem addsValues_foldl_addSatisfaction (addGoals : Bool) (t : Task) (ps : List Property) :
    t.AddsValues StartsPlain (ps.foldl (addSatisfaction addGoals) t) := by
  induction ps generalizing t with
  | nil => exact .refl _ t
  | cons p ps ih => exact (addsValues_addSatisfaction addGoals t p).trans (ih _)

/-- The values of the task may be marked; the values of the new variables are no facts, with and
without a mark. -/
theorem addsValues_compileActionSets {options : CompileOptions}
    (hmark : IsPlainMark options.softMark) {t : Task} {set : PropertySet} {compiled : Compiled}
    (h : compileActionSets options t set = .ok compiled) :
    (t.renameValues (markValue options.softMark set.softGoals)).AddsValues
      (fun value => factOfValue? value = none) compiled.task := by
  have hphases : t.AddsValues StartsPlain (addPhases t) :=
    .addStateVariable t (by decide : ∀ value ∈ ["phase_0", "phase_1"], StartsPlain value) 0
  have hproperties := hphases.trans
    (addsValues_foldl_addSatisfaction options.addGoals (addPhases t) set.properties)
  have hrecorded := hproperties.trans
    (addsValues_recordSets _ t.operators.length set.actionSets)
  have hmarked : ∀ value, StartsPlain value →
      factOfValue? (markValue options.softMark set.softGoals value) = none := by
    intro value hvalue
    rcases markValue_cases options.softMark set.softGoals value with ⟨-, -, hmarked⟩ | hsame
    · rw [hmarked]
      exact hvalue.factOfValue?_append hmark
    · rw [hsame]
      exact hvalue.factOfValue?
  unfold compileActionSets at h
  simp only at h
  split at h
  · cases h
  · cases h
    exact hrecorded.renameValues hmarked

/-! ## Automata -/

/-- The names of the values are no facts. -/
abbrev Task.AddsNoFacts (t t' : Task) : Prop :=
  t.AddsValues (fun value => factOfValue? value = none) t'

theorem Tracked.Tracks.addsNoFacts {m m' : Tracked} (h : m.Tracks m') :
    m.task.AddsNoFacts m'.task := by
  refine h.induction (P := fun m' => m.task.AddsNoFacts m'.task) (.refl _ _) ?_
  intro m' f atom hadds
  refine hadds.trans ⟨_, m'.vars_addTracker f atom, List.forall_mem_singleton.mpr ?_⟩
  simp [factOfValue?, factMark]

section

variable {options : CompileOptions}

theorem addsNoFacts_addAutomaton (hmark : IsPlainMark options.softMark) (soft : Bool) (t : Task)
    (a : Automaton Symbol) : t.AddsNoFacts (addAutomaton options soft t a).1 := by
  have hfirst : t.AddsNoFacts (t.addStateVariable (positionValues a) a.initial) :=
    .addStateVariable t (Temporal.factOfValue?_positionValues a) _
  have hvalues := Temporal.factOfValue?_acceptingValues hmark soft a.name
  have hsecond : ∀ init, t.AddsNoFacts ((t.addStateVariable (positionValues a)
      a.initial).addStateVariable (acceptingValues options.softMark soft a.name) init) :=
    fun init => hfirst.trans (.addStateVariable _ hvalues init)
  unfold addAutomaton
  cases options.addGoals with
  | false => exact hsecond _
  | true => exact (hsecond _).addGoal _

theorem Product.addsNoFacts_of_add (hmark : IsPlainMark options.softMark)
    {product product' : Product} {usedVars : List (String × VarId)}
    {p : Property × Automaton Symbol} (hadd : product.add options usedVars p = .ok product') :
    product.tracked.task.AddsNoFacts product'.tracked.task := by
  obtain ⟨m, ops, rfl, hmakes⟩ := Product.exists_of_add (fun _ => True) hadd
    fun _ _ _ _ _ _ _ _ _ => trivial
  exact (addsNoFacts_addAutomaton hmark p.1.soft product.tracked.task p.2).trans
    hmakes.tracks.addsNoFacts

theorem addsNoFacts_addTurns (options : CompileOptions) (t : Task) (set : PropertySet)
    (automata : List (Automaton Symbol)) :
    t.AddsNoFacts (addTurns options (recordingOf t set).task automata) := by
  have hrecorded : t.AddsNoFacts (recordingOf t set).task :=
    (addsValues_recordSets t t.operators.length set.actionSets).imp
      fun _ hvalue => hvalue.factOfValue?
  have hturn := hrecorded.trans
    (.addStateVariable _ (Temporal.factOfValue?_turnValues automata) 0)
  unfold addTurns
  cases options.addGoals with
  | false => exact hturn
  | true => exact hturn.addGoal _

/-- The values of new variables are no facts, as long as the mark of soft goals is not that of
facts. -/
theorem addsNoFacts_compileTemporal (hmark : IsPlainMark options.softMark) {translator : Translator}
    {t : Task} {set : PropertySet} {compiled : Compiled}
    (h : compileTemporal options translator t set = .ok compiled) :
    t.AddsNoFacts compiled.task := by
  unfold compileTemporal at h
  split at h
  · cases h
  · next automata hautomata =>
    unfold compileAutomata at h
    split at h
    · cases h
      exact .refl _ t
    · split at h
      · cases h
      · next product hproduct =>
        cases h
        exact foldSteps_invariant (fun product => t.AddsNoFacts product.tracked.task) hproduct
          (addsNoFacts_addTurns options t set automata)
          fun p _ product product' hadds hadd => hadds.trans (Product.addsNoFacts_of_add hmark hadd)

end

/-! ## Compilation -/

/-- The mark of soft goals makes no facts: it is plain, as what is proved of guards requires, and
where it stands in front of values of the task, it is no part of a mark of facts. -/
def Dialect.MarksNoFacts (dialect : Dialect) (mark : String) : Prop :=
  IsPlainMark mark ∧ (dialect = .actionSets → mark = "" ∨ ¬ mark.toList <+: factMark.toList)

instance (dialect : Dialect) (mark : String) : Decidable (dialect.MarksNoFacts mark) :=
  inferInstanceAs (Decidable (IsPlainMark mark ∧
    (dialect = .actionSets → mark = "" ∨ ¬ mark.toList <+: factMark.toList)))

/-- A value that is marked is no fact. -/
theorem makesNoFacts_markValue {mark : String}
    (h : Dialect.actionSets.MarksNoFacts mark) (softGoals : List String) :
    Task.MakesNoFacts (markValue mark softGoals) := by
  intro value
  rcases markValue_cases mark softGoals value with ⟨hunmarked, -, hmarked⟩ | hsame
  · refine .inr ?_
    rw [hmarked, factOfValue?, if_neg]
    rw [List.isPrefixOf_iff_prefix, String.toList_append]
    intro hfact
    -- The marks of facts and of soft goals both start the new name: one of them starts the other.
    rcases List.prefix_or_prefix_of_prefix hfact (List.prefix_append _ _) with hlong | hshort
    · exact h.1 hlong
    · rcases h.2 rfl with rfl | hno
      · exact hunmarked List.nil_prefix
      · exact hno hshort
  · exact .inl hsame

theorem makesNoFacts_valueName {dialect : Dialect} {options : CompileOptions}
    (h : dialect.MarksNoFacts options.softMark) (set : PropertySet) :
    Task.MakesNoFacts (dialect.valueName options set) := by
  cases dialect with
  | actionSets => exact makesNoFacts_markValue h set.softGoals
  | temporal => exact fun value => .inl rfl

/-- The compiled task has the values of the task, some of them marked, and others that are no
facts. -/
theorem addsNoFacts_compile {dialect : Dialect} {options : CompileOptions} {translator : Translator}
    {t : Task} {set : PropertySet} {compiled : Compiled} (hmark : IsPlainMark options.softMark)
    (h : compile dialect options translator t set = .ok compiled) :
    (t.renameValues (dialect.valueName options set)).AddsNoFacts compiled.task := by
  cases dialect with
  | actionSets => exact addsValues_compileActionSets hmark h
  | temporal =>
    have hsame : t.renameValues id = t := by simp [Task.renameValues]
    rw [Dialect.valueName, hsame]
    exact addsNoFacts_compileTemporal hmark h

/-- The last place is a soft goal. -/
def lastIsSoft : PropertySet := ⟨.empty, [], [], ["c"]⟩

end PlanConstraints

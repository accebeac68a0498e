import PlanConstraints.Proofs.Compile.PhasedPlans
import PlanConstraints.Proofs.Formula.Support
import PlanConstraints.Property.File

set_option autoImplicit false

/-!
# Properties that name unknown action sets

An action set that is not declared is found when the literals of the clauses are looked up.  So a
property is refused exactly if a clause of its formula names such a set, or a clause of the negation
where that is checked too (`compileActionSets_known`).  Clauses that contradict themselves are
looked up before they are skipped.  Clauses with a false conjunct have been left out by then, and
what only they name is never missed.
-/

namespace PlanConstraints

/-- The names of the sets that are looked up for the formula of a property: those of the clauses of
the formula, and those of the clauses of its negation if that is asked for. -/
def lookedUp (negative : Bool) (f : Formula Symbol) : Finset String :=
  (f.support true).getD ∅ ∪ if negative then (f.support false).getD ∅ else ∅

/-! ## One property -/

section

variable {usedVars : List (String × VarId)}

theorem exists_literalTest_iff {p : Property} {l : Literal Symbol} :
    (∃ fact, literalTest usedVars p l = .ok fact) ↔
      (usedVars.lookup l.atom.name).isSome = true := by
  unfold literalTest
  cases usedVars.lookup l.atom.name <;> simp

/-- There are operators exactly if all sets are found that the clauses name, also those without an
operator of their own. -/
theorem Checking.exists_operators_iff {k : Checking} {number : Nat} {cs : List (Clause Symbol)} :
    (∃ ops, k.operators usedVars number cs = .ok ops) ↔
      ∀ c ∈ cs, ∀ l ∈ c, (usedVars.lookup l.atom.name).isSome = true := by
  constructor
  · rintro ⟨ops, hops⟩ c hc l hl
    obtain ⟨tests, htests⟩ := Checking.exists_tests hops hc
    exact exists_literalTest_iff.mp (exists_traverse_iff.mp ⟨tests, htests⟩ l hl)
  · intro h
    induction cs generalizing number with
    | nil => exact ⟨[], rfl⟩
    | cons c cs ih =>
      obtain ⟨hc, hcs⟩ := List.forall_mem_cons.mp h
      obtain ⟨tests, htests⟩ := exists_traverse_iff.mpr fun l hl =>
        exists_literalTest_iff (p := k.property).mpr (hc l hl)
      obtain ⟨ops, hops⟩ := ih hcs
      unfold Checking.operators
      rw [htests, hops]
      exact ⟨_, rfl⟩

theorem exists_checkFormula_iff {k : Checking} {f : Formula Symbol} :
    (∃ ops, checkFormula usedVars k f = .ok ops) ↔
      f.isPropositional = true ∧
        ∀ name ∈ (f.support true).getD ∅, (usedVars.lookup name).isSome = true := by
  rw [← Formula.exists_clauses_toDnf_iff]
  constructor
  · rintro ⟨ops, hops⟩
    obtain ⟨cs, hcs, hops⟩ := exists_clauses_of_checkFormula hops
    refine ⟨⟨cs, hcs⟩, fun name hname => ?_⟩
    obtain ⟨c, hc, l, hl, rfl⟩ := (Formula.mem_support_iff hcs).mp hname
    exact Checking.exists_operators_iff.mp ⟨ops, hops⟩ c hc l hl
  · rintro ⟨⟨cs, hcs⟩, hnames⟩
    have hfound : ∀ c ∈ cs, ∀ l ∈ c, (usedVars.lookup l.atom.name).isSome = true :=
      fun c hc l hl => hnames _ ((Formula.mem_support_iff hcs).mpr ⟨c, hc, l, hl, rfl⟩)
    unfold checkFormula propertyClauses
    rw [hcs]
    exact Checking.exists_operators_iff.mpr hfound

theorem exists_checkProperty_iff {phase var : VarId} {negative : Bool} {p : Property} :
    (∃ ops, checkProperty usedVars phase negative (p, var) = .ok ops) ↔
      p.formula.isPropositional = true ∧
        ∀ name ∈ lookedUp negative p.formula, (usedVars.lookup name).isSome = true := by
  have hconfirm : (∃ ops, checkFormula usedVars ⟨p, "check_", phase, var, 1⟩ p.formula = .ok ops) ↔
      p.formula.isPropositional = true ∧
        ∀ name ∈ (p.formula.support true).getD ∅, (usedVars.lookup name).isSome = true :=
    exists_checkFormula_iff
  have hrefute : (∃ ops,
      checkFormula usedVars ⟨p, "neg_check_", phase, var, 0⟩ p.formula.negate = .ok ops) ↔
        p.formula.isPropositional = true ∧
          ∀ name ∈ (p.formula.support false).getD ∅, (usedVars.lookup name).isSome = true := by
    rw [exists_checkFormula_iff, Formula.isPropositional_negate, Formula.support_negate,
      Bool.not_true]
  unfold checkProperty
  cases negative with
  | false =>
    rw [lookedUp, if_neg Bool.false_ne_true, Finset.union_empty, ← hconfirm]
    cases checkFormula usedVars ⟨p, "check_", phase, var, 1⟩ p.formula <;> rfl
  | true =>
    rw [lookedUp, if_pos rfl, Finset.forall_mem_union, and_and_left, ← hconfirm, ← hrefute]
    cases checkFormula usedVars ⟨p, "check_", phase, var, 1⟩ p.formula <;>
      cases checkFormula usedVars ⟨p, "neg_check_", phase, var, 0⟩ p.formula.negate <;> simp

end

/-! ## All properties -/

/-- The variables of the sets are found by the names of the sets. -/
theorem isSome_lookup_usedVars (t : Task) (count : Nat) (sets : ActionSets) (name : String) :
    ((recordSets t count sets).usedVars.lookup name).isSome = sets.contains name := by
  rw [usedVars_recordSets, ActionSets.contains]
  cases h : (usedVarsFrom t.nextVar sets.sets).lookup name with
  | none => rw [lookup_usedVarsFrom_eq_none h, Option.isSome_none, Option.isSome_none]
  | some v =>
    obtain ⟨j, s, -, -, hfound⟩ := lookup_usedVarsFrom_eq_some h
    rw [hfound, Option.isSome_some, Option.isSome_some]

section

variable {options : CompileOptions} {t : Task} {set : PropertySet}

theorem exists_compileActionSets_iff :
    (∃ compiled, compileActionSets options t set = .ok compiled) ↔
      ∀ p ∈ set.properties, p.formula.isPropositional = true ∧
        ∀ name ∈ lookedUp options.negativeActions p.formula,
          set.actionSets.contains name = true := by
  -- Which variable a property has does not decide whether it can be checked.
  have hzip : ∀ (P : Property → Prop) (first : VarId),
      (∀ x ∈ set.properties.zip (satisfactionVars first set.properties), P x.1) ↔
        ∀ p ∈ set.properties, P p := by
    intro P first
    rw [← List.forall_mem_map (f := Prod.fst), List.map_fst_zip]
    rw [satisfactionVars, List.length_range']
  have hops : ∀ (task : Task) (count : Nat) (phase first : VarId),
      (∃ ops, traverse (checkProperty (recordSets task count set.actionSets).usedVars phase
          options.negativeActions) (set.properties.zip (satisfactionVars first set.properties)) =
            .ok ops) ↔
        ∀ p ∈ set.properties, p.formula.isPropositional = true ∧
          ∀ name ∈ lookedUp options.negativeActions p.formula,
            set.actionSets.contains name = true := by
    intro task count phase first
    rw [exists_traverse_iff, ← hzip _ first]
    refine forall₂_congr fun x _ => ?_
    rw [exists_checkProperty_iff]
    simp only [isSome_lookup_usedVars]
  unfold compileActionSets
  simp only
  rw [← hops ((set.properties.foldl (addSatisfaction options.addGoals) (addPhases t)))
    t.operators.length t.nextVar (addPhases t).nextVar]
  cases traverse (checkProperty _ _ _) _ <;> simp

/-- Compilation succeeds exactly if all formulas are propositional and all sets are declared that
are looked up.  Then the atoms of formulas without constants are all names of sets.

There is no hypothesis.  A clause that contradicts itself is left out before its names are looked
up, which is why the names that are looked up are not all atoms (`lookedUp`). -/
theorem compileActionSets_known (options : CompileOptions) (t : Task) (set : PropertySet) :
    ((∃ compiled, compileActionSets options t set = .ok compiled) ↔
      ∀ p ∈ set.properties, p.formula.isPropositional = true ∧
        ∀ name ∈ lookedUp options.negativeActions p.formula,
          set.actionSets.contains name = true) ∧
      ∀ compiled, compileActionSets options t set = .ok compiled →
        ∀ p ∈ set.properties, (∀ b, .const b ∉ p.formula.parts) →
          ∀ a ∈ p.formula.atoms, set.actionSets.contains a.name = true := by
  refine ⟨exists_compileActionSets_iff, fun compiled h p hp hconst a ha => ?_⟩
  obtain ⟨hprop, hknown⟩ := exists_compileActionSets_iff.mp ⟨compiled, h⟩ p hp
  apply hknown
  apply Finset.mem_union_left
  rw [Formula.support_of_no_const hprop hconst, Option.getD_some, List.mem_toFinset]
  exact List.mem_map_of_mem ha

end

/-- Besides the way by bus, a property that can never be true and names a set that is not there. -/
def commuteByTrain : PropertySet :=
  { commuteByBus with
    properties := commuteByBus.properties ++
      [⟨.ofName "by-train", .and (.const false) (.atom (.ofName "trains")), false⟩] }

/-- The set is missed only where the negation is checked too. -/
theorem compileActionSets_commuteByTrain :
    (∃ compiled,
      compileActionSets ⟨true, false, false, .exact, "soft_"⟩ commute commuteByTrain =
          .ok compiled ∧
        commuteByTrain.actionSets.contains "rides" = true ∧
          commuteByTrain.actionSets.contains "trains" = false) ∧
      ¬ ∃ compiled,
        compileActionSets ⟨true, true, false, .exact, "soft_"⟩ commute commuteByTrain =
          .ok compiled := by
  obtain ⟨hsucceeds, hknown⟩ :=
    compileActionSets_known ⟨true, false, false, .exact, "soft_"⟩ commute commuteByTrain
  obtain ⟨compiled, h⟩ := hsucceeds.mpr (by decide +kernel)
  have hrides := hknown compiled h ⟨.ofName "by-bus", .atom (.ofName "rides"), false⟩
    List.mem_cons_self (by simp [Formula.parts]) (.ofName "rides") (List.mem_singleton_self _)
  refine ⟨⟨compiled, h, hrides, by decide +kernel⟩, fun hnegative => ?_⟩
  have hnames := (compileActionSets_known ⟨true, true, false, .exact, "soft_"⟩ commute
    commuteByTrain).1.mp hnegative
  revert hnames
  decide +kernel

/-- The file has one property and no set.  It is read and compiled, although the property names a
set. -/
theorem compileActionSets_unknown : ∃ set compiled,
    PropertyFile.read .empty .actionSets (.ofText "property p\n&& false nope\n") = .ok set ∧
      compileActionSets ⟨true, false, false, .exact, "soft_"⟩ commute set = .ok compiled ∧
        set.properties.map (fun p => p.formula.atoms.map Symbol.name) = [["nope"]] ∧
          set.actionSets.contains "nope" = false := by
  have hfacts : (PropertyFile.read .empty .actionSets
      (.ofText "property p\n&& false nope\n")).toOption.map (fun set =>
        ((compileActionSets ⟨true, false, false, .exact, "soft_"⟩ commute set).isOk,
          set.properties.map (fun p => p.formula.atoms.map Symbol.name),
          set.actionSets.contains "nope")) = some (true, [["nope"]], false) := by
    decide +kernel
  obtain ⟨set, hread, hset⟩ := Option.map_eq_some_iff.mp hfacts
  simp only [Prod.mk.injEq] at hset
  obtain ⟨hok, hatoms, hunknown⟩ := hset
  obtain ⟨compiled, hcompiled⟩ := exists_of_isOk hok
  exact ⟨set, compiled, eq_ok_of_toOption hread, hcompiled, hatoms, hunknown⟩

end PlanConstraints

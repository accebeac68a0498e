import PlanConstraints.Proofs.Compile.FactNames
import PlanConstraints.Proofs.Formula.Clauses

set_option autoImplicit false

/-!
# Operators in standard form

A compilation with action sets keeps operators in standard form: at most one condition on a
variable, and none on a variable that is assigned.  The clauses of normal forms have every set once,
and phases, sets and properties have different variables.
-/

namespace PlanConstraints

open Temporal (IsPlainMark)

/-! ## Checking operators -/

/-- The literals of a clause that may be true have different names. -/
theorem nodup_names_of_clause {cl : Clause Symbol} (hkeys : (cl.map Literal.key).Nodup)
    (hpossible : cl.isContradictory = false) : (cl.map fun l => l.atom.name).Nodup := by
  refine List.pairwise_map.mpr ((List.pairwise_map.mp hkeys).imp_of_mem ?_)
  intro l l' hl hl' hkey hname
  have hnegated : l'.negated ≠ l.negated := fun heq => hkey (Prod.ext hname heq.symm)
  rw [Clause.isContradictory, List.any_eq_false] at hpossible
  refine hpossible l hl (List.any_eq_true.mpr ⟨l', hl', ?_⟩)
  rw [Bool.and_eq_true]
  exact ⟨decide_eq_true hname.symm, bne_iff_ne.mpr hnegated⟩

/-- Sets of different names have different variables. -/
theorem name_eq_of_lookup_usedVarsFrom {var v : Nat} {sets : List ActionSet} {name name' : String}
    (h : (usedVarsFrom var sets).lookup name = some v)
    (h' : (usedVarsFrom var sets).lookup name' = some v) : name = name' := by
  obtain ⟨j, s, rfl, hs, hname⟩ := lookup_usedVarsFrom_eq_some h
  obtain ⟨j', s', hj, hs', hname'⟩ := lookup_usedVarsFrom_eq_some h'
  obtain rfl : j = j' := by omega
  rw [hs] at hs'
  cases hs'
  have hfirst : s.name = name := by simpa using List.find?_some hname
  have hsecond : s.name = name' := by simpa using List.find?_some hname'
  exact hfirst.symm.trans hsecond

/-- The conditions of a clause that may be true are on different variables, all of them of sets. -/
theorem tests_of_clause {var : Nat} {sets : List ActionSet} {p : Property} {cl : Clause Symbol}
    (hkeys : (cl.map Literal.key).Nodup) (hpossible : cl.isContradictory = false)
    {tests : List Fact} (h : traverse (literalTest (usedVarsFrom var sets) p) cl = .ok tests) :
    (tests.map Fact.var).Nodup ∧ ∀ f ∈ tests, var ≤ f.var := by
  have hlookup : ∀ l f, literalTest (usedVarsFrom var sets) p l = .ok f →
      (usedVarsFrom var sets).lookup l.atom.name = some f.var := by
    intro l f hl
    unfold literalTest at hl
    split at hl
    · next v hv =>
      cases hl
      exact hv
    · cases hl
  refine ⟨nodup_map_traverse h (fun l => l.atom.name) Fact.var
    (nodup_names_of_clause hkeys hpossible) fun l l' f f' hl hl' hvar => ?_, fun f hf => ?_⟩
  · have hfirst := hlookup l f hl
    rw [hvar] at hfirst
    exact name_eq_of_lookup_usedVarsFrom hfirst (hlookup l' f' hl')
  · obtain ⟨l, -, hl⟩ := mem_of_mem_traverse h hf
    obtain ⟨j, s, hvar, -, -⟩ := lookup_usedVarsFrom_eq_some (hlookup l f hl)
    exact hvar ▸ Nat.le_add_right var j

/-- Checking operators are in standard form, if the variables of the phase and of the property are
different and come before those of sets. -/
theorem isStandard_of_checkFormula {var : Nat} {sets : List ActionSet} {k : Checking}
    (hphase : k.phase < var) (hsatisfaction : k.satisfaction < var)
    (hne : k.phase ≠ k.satisfaction) {f : Formula Symbol} {ops : List Operator}
    (h : checkFormula (usedVarsFrom var sets) k f = .ok ops) : ∀ op ∈ ops, op.IsStandard := by
  intro op hop
  obtain ⟨cs, hcs, hops⟩ := exists_clauses_of_checkFormula h
  obtain ⟨cl, number, tests, hcl, hpossible, htests, rfl⟩ := (Checking.mem_operators hops).mp hop
  have hkeys := Formula.nodup_of_mem_clauses hcs cl (List.fst_mem_of_mem_zipIdx hcl)
  obtain ⟨hnodup, hle⟩ := tests_of_clause hkeys hpossible htests
  constructor
  · rw [Checking.operator, List.map_append, List.nodup_append]
    refine ⟨hnodup, by simp, List.forall_mem_map.mpr fun g hg =>
      List.forall_mem_singleton.mpr ?_⟩
    exact Nat.ne_of_gt (Nat.lt_of_lt_of_le hphase (hle g hg))
  · refine List.forall_mem_append.mpr ⟨fun g hg => ?_, List.forall_mem_singleton.mpr ?_⟩
    · refine Operator.assigns_eq_false_iff.mpr (List.forall_mem_singleton.mpr ?_)
      exact Nat.ne_of_lt (Nat.lt_of_lt_of_le hsatisfaction (hle g hg))
    · exact Operator.assigns_eq_false_iff.mpr (List.forall_mem_singleton.mpr hne.symm)

/-! ## Action sets -/

/-- Compiling properties over action sets keeps operators in standard form. -/
theorem isStandard_compileActionSets {options : CompileOptions} {t : Task} {set : PropertySet}
    {compiled : Compiled} (hc : t.Consistent) (hops : ∀ op ∈ t.operators, op.IsStandard)
    (h : compileActionSets options t set = .ok compiled) :
    ∀ op ∈ compiled.task.operators, op.IsStandard := by
  obtain ⟨checks, hr⟩ := Phases.exists_result h
  rw [hr.operators]
  refine List.forall_mem_append.mpr ⟨List.forall_mem_map.mpr fun op hop => ?_,
    List.forall_mem_cons.mpr ⟨⟨List.nodup_nil, List.forall_mem_nil _⟩, fun op hop => ?_⟩⟩
  -- The operators of the task get a condition on the phase, and effects on the use of sets.
  · have hrecords : ∀ e ∈ recordEffects op (t.vars.length + (1 + set.properties.length))
        set.actionSets.sets, t.vars.length < e.var := by
      intro e he
      obtain ⟨j, rfl⟩ := mem_recordEffects he
      rw [Effect.assign_var]
      omega
    exact (hops op hop).extend (hc.within hop) (List.forall_mem_singleton.mpr (Nat.le_refl _))
      (fun e he => Nat.le_of_lt (hrecords e he)) (by simp)
      (List.forall_mem_singleton.mpr fun e he => Nat.ne_of_gt (hrecords e he))
  · obtain ⟨ops, hmem, hop⟩ := List.mem_flatten.mp hop
    obtain ⟨⟨p, var⟩, hpair, hcheck⟩ := mem_of_mem_traverse hr.checks_eq hmem
    obtain ⟨hle, hlt⟩ := List.mem_range'_1.mp (List.of_mem_zip hpair).2
    obtain ⟨k, f, ops', hphase, hvar, hformula, hop⟩ := exists_checking_of_checkProperty hcheck hop
    refine isStandard_of_checkFormula ?_ ?_ ?_ hformula op hop
    · rw [hphase]
      lia
    · rw [hvar]
      lia
    · rw [hphase, hvar]
      lia

end PlanConstraints

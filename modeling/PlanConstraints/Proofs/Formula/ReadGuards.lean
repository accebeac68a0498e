import PlanConstraints.Proofs.Formula.Atoms
import PlanConstraints.Proofs.Formula.GuardGrammar

set_option autoImplicit false

/-!
# What is read as a guard

Whatever is read as a guard is propositional, and none of its atoms is a word for a constant
(`isPlain_ofText`), since both readings take such words for the constants.
-/

namespace PlanConstraints

namespace Guard

/-- The formula is propositional, and no atom is a word for a constant. -/
structure IsPlain (f : Formula String) : Prop where
  isPropositional : f.isPropositional = true
  notConstant : ∀ a ∈ f.atoms, a ∉ constantWords

variable {f g : Formula String} {text : String}

theorem isPlain_const (value : Bool) : IsPlain (.const value) := ⟨rfl, List.forall_mem_nil _⟩

theorem IsPlain.neg (hf : IsPlain f) : IsPlain (.neg f) := ⟨hf.isPropositional, hf.notConstant⟩

theorem IsPlain.and (hf : IsPlain f) (hg : IsPlain g) : IsPlain (.and f g) :=
  ⟨Formula.isPropositional_and_iff.mpr ⟨hf.isPropositional, hg.isPropositional⟩,
    List.forall_mem_append.mpr ⟨hf.notConstant, hg.notConstant⟩⟩

theorem IsPlain.or (hf : IsPlain f) (hg : IsPlain g) : IsPlain (.or f g) :=
  ⟨Formula.isPropositional_or_iff.mpr ⟨hf.isPropositional, hg.isPropositional⟩,
    List.forall_mem_append.mpr ⟨hf.notConstant, hg.notConstant⟩⟩

/-- What is derived between operands is plain. -/
theorem Derives.isPlain {level : Level} {ts : List Token} (h : Derives level ts f) : IsPlain f := by
  induction h with
  | trueWord h => exact isPlain_const true
  | falseWord h => exact isPlain_const false
  | atom h => exact ⟨rfl, List.forall_mem_singleton.mpr h⟩
  | neg h ih => exact ih.neg
  | group h ih => exact ih
  | operand h ih => exact ih
  | and hf hg ihf ihg => exact ihf.and ihg
  | conjunction h ih => exact ih
  | or hf hg ihf ihg => exact ihf.or ihg

theorem isPlain_of_polish? (h : polish? text = some f) : IsPlain f := by
  unfold polish? at h
  split at h
  · cases h
  · next g hg =>
    split at h
    · next hconditions =>
      cases h
      rw [Bool.and_eq_true] at hconditions
      refine ⟨hconditions.2, fun a ha hconstant => ?_⟩
      have hsub : constantWords ⊆ Formula.reservedWords := by decide
      exact Formula.notMem_reservedWords hg ha (hsub hconstant)
    · cases h

/-- What is read as a guard is plain. -/
theorem isPlain_ofText (h : ofText text = .ok f) : IsPlain f := by
  unfold ofText at h
  simp only at h
  split at h
  · next hpolish =>
    cases h
    exact isPlain_of_polish? hpolish
  · exact (ofTokens_eq_ok_iff.mp h).isPlain

end Guard

end PlanConstraints

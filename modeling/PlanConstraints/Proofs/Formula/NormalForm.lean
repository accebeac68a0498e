import Mathlib.Logic.Function.Iterate
import PlanConstraints.Formula.NormalForm

set_option autoImplicit false

/-!
# What a normal form looks like

The passes of distribution end, and the formula that they end with is a normal form: no disjunction
stands below a conjunction, and negations stand directly in front of atoms and of temporal formulas,
which are those of the formula at the start.  Nothing that makes normal forms changes it any more
(`toDnf_normal`).

A temporal formula is one unit here: the passes do not look into it.
-/

namespace PlanConstraints

namespace Formula

variable {α : Type}

/-- The formula starts with a temporal operator. -/
def isTemporal : Formula α → Bool
  | .const _ | .atom _ => false
  | .unary op _ => op.isTemporal
  | .binary op _ _ => op.isTemporal

/-- The formula and all formulas in it, down to atoms, constants and temporal formulas. -/
def parts : Formula α → List (Formula α)
  | .unary .neg f => .neg f :: f.parts
  | .binary .and f g => .and f g :: (f.parts ++ g.parts)
  | .binary .or f g => .or f g :: (f.parts ++ g.parts)
  | f => [f]

@[simp] theorem parts_neg (f : Formula α) : (neg f).parts = .neg f :: f.parts := rfl

@[simp] theorem parts_and (f g : Formula α) :
    (and f g).parts = .and f g :: (f.parts ++ g.parts) := rfl

@[simp] theorem parts_or (f g : Formula α) :
    (or f g).parts = .or f g :: (f.parts ++ g.parts) := rfl

theorem parts_of_isTemporal {f : Formula α} (h : f.isTemporal = true) : f.parts = [f] := by
  cases f with
  | const b => rfl
  | atom a => rfl
  | unary op f => cases op <;> first | rfl | cases h
  | binary op f g => cases op <;> first | rfl | cases h

/-! ## Negations -/

/-- The formula is an atom or a temporal formula. -/
def IsUnit (f : Formula α) : Prop := (∃ a, f = .atom a) ∨ f.isTemporal = true

/-- Negations stand directly in front of atoms and temporal formulas only. -/
def NegatesUnits (f : Formula α) : Prop := ∀ g, .neg g ∈ f.parts → g.IsUnit

variable {f g : Formula α}

theorem IsUnit.parts_eq (h : f.IsUnit) : f.parts = [f] := by
  rcases h with ⟨a, rfl⟩ | h
  · rfl
  · exact parts_of_isTemporal h

theorem IsUnit.ne_neg (h : f.IsUnit) (g : Formula α) : f ≠ .neg g := by
  rintro rfl
  rcases h with ⟨a, ha⟩ | h
  · cases ha
  · cases h

theorem IsUnit.negatesUnits (h : f.IsUnit) : f.NegatesUnits := by
  intro g hg
  rw [h.parts_eq, List.mem_singleton] at hg
  exact absurd hg.symm (h.ne_neg g)

theorem negatesUnits_of_isTemporal (h : f.isTemporal = true) : f.NegatesUnits :=
  IsUnit.negatesUnits (.inr h)

theorem negatesUnits_const (b : Bool) : (const b : Formula α).NegatesUnits := by
  intro g hg
  cases List.mem_singleton.mp hg

theorem negatesUnits_neg_iff : (neg f).NegatesUnits ↔ f.IsUnit := by
  constructor
  · intro h
    exact h f List.mem_cons_self
  · intro h g hg
    rcases List.mem_cons.mp hg with heq | hg
    · cases heq
      exact h
    · exact h.negatesUnits g hg

theorem negatesUnits_and_iff : (and f g).NegatesUnits ↔ f.NegatesUnits ∧ g.NegatesUnits := by
  simp [NegatesUnits, or_imp, forall_and]

theorem negatesUnits_or_iff : (or f g).NegatesUnits ↔ f.NegatesUnits ∧ g.NegatesUnits := by
  simp [NegatesUnits, or_imp, forall_and]

theorem NegatesUnits.negate (h : f.NegatesUnits) : f.negate.NegatesUnits := by
  induction f with
  | const b => exact negatesUnits_const (!b)
  | atom a => exact negatesUnits_neg_iff.mpr (.inl ⟨a, rfl⟩)
  | unary op f _ =>
    cases op with
    | neg => exact (negatesUnits_neg_iff.mp h).negatesUnits
    | eventually | always | next => exact negatesUnits_neg_iff.mpr (.inr rfl)
  | binary op f g ihf ihg =>
    cases op with
    | and =>
      obtain ⟨hf, hg⟩ := negatesUnits_and_iff.mp h
      exact negatesUnits_or_iff.mpr ⟨ihf hf, ihg hg⟩
    | or =>
      obtain ⟨hf, hg⟩ := negatesUnits_or_iff.mp h
      exact negatesUnits_and_iff.mpr ⟨ihf hf, ihg hg⟩
    | strongUntil | weakUntil => exact negatesUnits_neg_iff.mpr (.inr rfl)

/-- Moving negations down leaves none but those in front of atoms and temporal formulas. -/
theorem negatesUnits_nnf (f : Formula α) : f.nnf.NegatesUnits := by
  induction f with
  | const b => exact negatesUnits_const b
  | atom a => exact IsUnit.negatesUnits (.inl ⟨a, rfl⟩)
  | unary op f ih =>
    cases op with
    | neg => exact ih.negate
    | eventually | always | next => exact negatesUnits_of_isTemporal rfl
  | binary op f g ihf ihg =>
    cases op with
    | and => exact negatesUnits_and_iff.mpr ⟨ihf, ihg⟩
    | or => exact negatesUnits_or_iff.mpr ⟨ihf, ihg⟩
    | strongUntil | weakUntil => exact negatesUnits_of_isTemporal rfl

theorem negate_of_isUnit (h : f.IsUnit) : f.negate = .neg f := by
  cases f with
  | const b => rcases h with ⟨a, ha⟩ | h <;> contradiction
  | atom a => rfl
  | unary op f =>
    cases op with
    | neg => exact absurd rfl (h.ne_neg f)
    | eventually | always | next => rfl
  | binary op f g =>
    cases op with
    | and | or => rcases h with ⟨a, ha⟩ | h <;> contradiction
    | strongUntil | weakUntil => rfl

theorem nnf_of_isUnit (h : f.IsUnit) : f.nnf = f := by
  cases f with
  | const b => rfl
  | atom a => rfl
  | unary op f =>
    cases op with
    | neg => exact absurd rfl (h.ne_neg f)
    | eventually | always | next => rfl
  | binary op f g =>
    cases op with
    | and | or => rcases h with ⟨a, ha⟩ | h <;> contradiction
    | strongUntil | weakUntil => rfl

/-- Where negations cannot be moved down any further, nothing changes. -/
theorem NegatesUnits.nnf_eq (h : f.NegatesUnits) : f.nnf = f := by
  induction f with
  | const b => rfl
  | atom a => rfl
  | unary op f _ =>
    cases op with
    | neg =>
      have hunit := negatesUnits_neg_iff.mp h
      rw [nnf, nnf_of_isUnit hunit, negate_of_isUnit hunit]
    | eventually | always | next => rfl
  | binary op f g ihf ihg =>
    cases op with
    | and =>
      obtain ⟨hf, hg⟩ := negatesUnits_and_iff.mp h
      rw [nnf, ihf hf, ihg hg]
    | or =>
      obtain ⟨hf, hg⟩ := negatesUnits_or_iff.mp h
      rw [nnf, ihf hf, ihg hg]
    | strongUntil | weakUntil => rfl

theorem NegatesUnits.distributeAnd (hf : f.NegatesUnits) (hg : g.NegatesUnits) :
    (distributeAnd f g).NegatesUnits := by
  unfold Formula.distributeAnd
  split
  · obtain ⟨ha, hb⟩ := negatesUnits_or_iff.mp hg
    exact negatesUnits_or_iff.mpr
      ⟨negatesUnits_and_iff.mpr ⟨hf, ha⟩, negatesUnits_and_iff.mpr ⟨hf, hb⟩⟩
  · split
    · obtain ⟨ha, hb⟩ := negatesUnits_or_iff.mp hf
      exact negatesUnits_or_iff.mpr
        ⟨negatesUnits_and_iff.mpr ⟨ha, hg⟩, negatesUnits_and_iff.mpr ⟨hb, hg⟩⟩
    · exact negatesUnits_and_iff.mpr ⟨hf, hg⟩

theorem NegatesUnits.distribute (h : f.NegatesUnits) : f.distribute.NegatesUnits := by
  induction f with
  | const b => exact h
  | atom a => exact h
  | unary op f _ => exact h
  | binary op f g ihf ihg =>
    cases op with
    | and =>
      obtain ⟨hf, hg⟩ := negatesUnits_and_iff.mp h
      exact (ihf hf).distributeAnd (ihg hg)
    | or =>
      obtain ⟨hf, hg⟩ := negatesUnits_or_iff.mp h
      exact negatesUnits_or_iff.mpr ⟨ihf hf, ihg hg⟩
    | strongUntil | weakUntil => exact h

theorem NegatesUnits.distributeAll (h : f.NegatesUnits) : f.distributeAll.NegatesUnits := by
  fun_induction Formula.distributeAll f with
  | case1 f _ => exact h
  | case2 f _ ih => exact ih h.distribute

theorem negatesUnits_toDnf (f : Formula α) : f.toDnf.NegatesUnits :=
  (negatesUnits_nnf f).distributeAll

/-! ## Disjunctions -/

theorem isDistributed_distributeAll (f : Formula α) : f.distributeAll.isDistributed = true := by
  fun_induction Formula.distributeAll f with
  | case1 f hdone => exact hdone
  | case2 f _ ih => exact ih

theorem isDistributed_toDnf (f : Formula α) : f.toDnf.isDistributed = true :=
  isDistributed_distributeAll f.nnf

/-- A distributed formula that is no disjunction has none in it. -/
theorem isOr_eq_false_of_mem_parts (hneg : f.NegatesUnits) (hdist : f.isDistributed = true)
    (hor : f.isOr = false) : ∀ k ∈ f.parts, k.isOr = false := by
  induction f with
  | const b => exact List.forall_mem_singleton.mpr rfl
  | atom a => exact List.forall_mem_singleton.mpr rfl
  | unary op f _ =>
    cases op with
    | neg =>
      have hunit := negatesUnits_neg_iff.mp hneg
      rw [parts_neg, hunit.parts_eq]
      refine List.forall_mem_cons.mpr ⟨rfl, List.forall_mem_singleton.mpr ?_⟩
      rcases hunit with ⟨a, rfl⟩ | htemporal
      · rfl
      · cases f with
        | const _ | atom _ | unary _ _ => rfl
        | binary op _ _ => cases op <;> first | rfl | cases htemporal
    | eventually | always | next => exact List.forall_mem_singleton.mpr rfl
  | binary op f g ihf ihg =>
    cases op with
    | and =>
      obtain ⟨hf, hg⟩ := negatesUnits_and_iff.mp hneg
      simp only [isDistributed, Bool.and_eq_true, Bool.not_eq_true'] at hdist
      obtain ⟨⟨⟨hfor, hgor⟩, hfdist⟩, hgdist⟩ := hdist
      rw [parts_and]
      exact List.forall_mem_cons.mpr ⟨rfl, List.forall_mem_append.mpr
        ⟨ihf hf hfdist hfor, ihg hg hgdist hgor⟩⟩
    | or => cases hor
    | strongUntil | weakUntil => exact List.forall_mem_singleton.mpr rfl

/-- In a distributed formula no disjunction stands below a conjunction. -/
theorem isOr_eq_false_below_and (hneg : f.NegatesUnits) (hdist : f.isDistributed = true)
    {g h : Formula α} (hmem : .and g h ∈ f.parts) : ∀ k ∈ g.parts ++ h.parts, k.isOr = false := by
  induction f with
  | const b => cases List.mem_singleton.mp hmem
  | atom a => cases List.mem_singleton.mp hmem
  | unary op f _ =>
    cases op with
    | neg =>
      have hunit := negatesUnits_neg_iff.mp hneg
      rw [parts_neg, hunit.parts_eq, List.mem_cons, List.mem_singleton] at hmem
      rcases hmem with heq | rfl
      · cases heq
      · rcases hunit with ⟨a, heq⟩ | htemporal
        · cases heq
        · cases htemporal
    | eventually | always | next => cases List.mem_singleton.mp hmem
  | binary op f f' ihf ihf' =>
    cases op with
    | and =>
      have hnone := isOr_eq_false_of_mem_parts hneg hdist rfl
      obtain ⟨hf, hf'⟩ := negatesUnits_and_iff.mp hneg
      simp only [isDistributed, Bool.and_eq_true] at hdist
      rw [parts_and] at hmem hnone
      rcases List.mem_cons.mp hmem with heq | hmem
      · cases heq
        exact (List.forall_mem_cons.mp hnone).2
      · rcases List.mem_append.mp hmem with hmem | hmem
        · exact ihf hf hdist.1.2 hmem
        · exact ihf' hf' hdist.2 hmem
    | or =>
      obtain ⟨hf, hf'⟩ := negatesUnits_or_iff.mp hneg
      simp only [isDistributed, Bool.and_eq_true] at hdist
      rw [parts_or, List.mem_cons, List.mem_append] at hmem
      rcases hmem with heq | hmem | hmem
      · cases heq
      · exact ihf hf hdist.1 hmem
      · exact ihf' hf' hdist.2 hmem
    | strongUntil | weakUntil => cases List.mem_singleton.mp hmem

/-! ## Temporal formulas -/

section

variable {t : Formula α}

theorem notMem_parts_const (ht : t.isTemporal = true) (b : Bool) :
    t ∉ (const b : Formula α).parts := by
  intro h
  cases List.mem_singleton.mp h
  cases ht

theorem mem_parts_neg_iff (ht : t.isTemporal = true) : t ∈ (neg f).parts ↔ t ∈ f.parts := by
  rw [parts_neg, List.mem_cons, or_iff_right]
  rintro rfl
  cases ht

theorem mem_parts_and_iff (ht : t.isTemporal = true) :
    t ∈ (and f g).parts ↔ t ∈ f.parts ∨ t ∈ g.parts := by
  rw [parts_and, List.mem_cons, List.mem_append, or_iff_right]
  rintro rfl
  cases ht

theorem mem_parts_or_iff (ht : t.isTemporal = true) :
    t ∈ (or f g).parts ↔ t ∈ f.parts ∨ t ∈ g.parts := by
  rw [parts_or, List.mem_cons, List.mem_append, or_iff_right]
  rintro rfl
  cases ht

theorem mem_parts_negate_iff (ht : t.isTemporal = true) : t ∈ f.negate.parts ↔ t ∈ f.parts := by
  induction f with
  | const b => exact iff_of_false (notMem_parts_const ht (!b)) (notMem_parts_const ht b)
  | atom a => exact mem_parts_neg_iff ht
  | unary op f _ =>
    cases op with
    | neg => exact (mem_parts_neg_iff ht).symm
    | eventually | always | next => exact mem_parts_neg_iff ht
  | binary op f g ihf ihg =>
    cases op with
    | and => rw [negate, mem_parts_or_iff ht, mem_parts_and_iff ht, ihf, ihg]
    | or => rw [negate, mem_parts_and_iff ht, mem_parts_or_iff ht, ihf, ihg]
    | strongUntil | weakUntil => exact mem_parts_neg_iff ht

theorem mem_parts_nnf_iff (ht : t.isTemporal = true) : t ∈ f.nnf.parts ↔ t ∈ f.parts := by
  induction f with
  | const b => rfl
  | atom a => rfl
  | unary op f ih =>
    cases op with
    | neg => rw [nnf, mem_parts_negate_iff ht, ih, mem_parts_neg_iff ht]
    | eventually | always | next => rfl
  | binary op f g ihf ihg =>
    cases op with
    | and => rw [nnf, mem_parts_and_iff ht, mem_parts_and_iff ht, ihf, ihg]
    | or => rw [nnf, mem_parts_or_iff ht, mem_parts_or_iff ht, ihf, ihg]
    | strongUntil | weakUntil => rfl

theorem mem_parts_distributeAnd_iff (ht : t.isTemporal = true) :
    t ∈ (distributeAnd f g).parts ↔ t ∈ f.parts ∨ t ∈ g.parts := by
  unfold distributeAnd
  split
  · simp only [mem_parts_or_iff ht, mem_parts_and_iff ht]
    exact or_or_distrib_left.symm
  · split
    · simp only [mem_parts_or_iff ht, mem_parts_and_iff ht]
      exact or_or_distrib_right.symm
    · exact mem_parts_and_iff ht

theorem mem_parts_distribute_iff (ht : t.isTemporal = true) :
    t ∈ f.distribute.parts ↔ t ∈ f.parts := by
  induction f with
  | const b => rfl
  | atom a => rfl
  | unary op f _ => rfl
  | binary op f g ihf ihg =>
    cases op with
    | and => rw [distribute, mem_parts_distributeAnd_iff ht, mem_parts_and_iff ht, ihf, ihg]
    | or => rw [distribute, mem_parts_or_iff ht, mem_parts_or_iff ht, ihf, ihg]
    | strongUntil | weakUntil => rfl

theorem mem_parts_distributeAll_iff (ht : t.isTemporal = true) :
    t ∈ f.distributeAll.parts ↔ t ∈ f.parts := by
  fun_induction distributeAll f with
  | case1 f _ => rfl
  | case2 f _ ih => rw [ih, mem_parts_distribute_iff ht]

/-- The temporal formulas of the normal form are those of the formula. -/
theorem mem_parts_toDnf_iff (ht : t.isTemporal = true) : t ∈ f.toDnf.parts ↔ t ∈ f.parts := by
  rw [toDnf, mem_parts_distributeAll_iff ht, mem_parts_nnf_iff ht]

end

/-! ## Passes -/

/-- Names are no part of the weight. -/
theorem weight_map {β : Type} (rename : α → β) (f : Formula α) :
    (f.map rename).weight = f.weight := by
  induction f with
  | const b => rfl
  | atom a => rfl
  | unary op f _ => rfl
  | binary op f g ihf ihg =>
    cases op with
    | and => rw [map, weight, weight, ihf, ihg]
    | or => rw [map, weight, weight, ihf, ihg]
    | strongUntil | weakUntil => rfl

/-- A pass over a formula that is not distributed changes more than names. -/
theorem map_distribute_ne {β : Type} (rename : α → β) (h : f.isDistributed = false) :
    f.distribute.map rename ≠ f.map rename := by
  intro heq
  have hlt := weight_distribute_lt h
  rw [← weight_map rename, heq, weight_map] at hlt
  exact Nat.lt_irrefl _ hlt

/-- Repeating passes is finitely many passes, each over a formula that is not distributed. -/
theorem exists_iterate_distribute (f : Formula α) :
    ∃ n, distribute^[n] f = f.distributeAll ∧
      ∀ m < n, (distribute^[m] f).isDistributed = false := by
  fun_induction distributeAll f with
  | case1 f _ => exact ⟨0, rfl, fun m hm => absurd hm (Nat.not_lt_zero m)⟩
  | case2 f hnot ih =>
    obtain ⟨n, heq, hbefore⟩ := ih
    refine ⟨n + 1, heq, fun m hm => ?_⟩
    cases m with
    | zero => exact Bool.eq_false_iff.mpr hnot
    | succ m => exact hbefore m (Nat.lt_of_succ_lt_succ hm)

/-! ## Normalizing -/

/-- What making a normal form does to the first formula, whose negations are moved down before the
passes start. -/
structure NormalizesTo [Named α] (f d : Formula α) : Prop where
  /-- The passes end with the first one that changes nothing, not even when atoms are told apart by
  their names only. -/
  passes : ∃ n, distribute^[n] f.nnf = d ∧
    ∀ m < n, (distribute^[m + 1] f.nnf).map nameOf ≠ (distribute^[m] f.nnf).map nameOf
  /-- No disjunction stands below a conjunction. -/
  below_and : ∀ g h, .and g h ∈ d.parts → ∀ k ∈ g.parts ++ h.parts, k.isOr = false
  /-- Negations stand directly in front of atoms and temporal formulas. -/
  below_neg : ∀ g, .neg g ∈ d.parts → (∃ a, g = .atom a) ∨ g.isTemporal = true
  /-- The temporal formulas are those of the first formula. -/
  temporal : ∀ t : Formula α, t.isTemporal = true → (t ∈ d.parts ↔ t ∈ f.parts)
  distribute_eq : d.distribute = d
  nnf_eq : d.nnf = d
  toDnf_eq : d.toDnf = d

end Formula

/-- Passes of distribution are repeated until one changes nothing; that happens after finitely many,
and the formula that is left is in normal form.  Another pass, moving negations down and making a
normal form leave it as it is.  There is no hypothesis: the formula may be temporal, and its atoms
may differ in more than their names. -/
theorem toDnf_normal {α : Type} [Named α] (f : Formula α) : f.NormalizesTo f.toDnf := by
  have hneg := f.negatesUnits_toDnf
  have hdist := f.isDistributed_toDnf
  obtain ⟨n, heq, hbefore⟩ := f.nnf.exists_iterate_distribute
  refine
    { passes := ⟨n, heq, fun m hm => ?_⟩
      below_and := fun g h => Formula.isOr_eq_false_below_and hneg hdist
      below_neg := hneg
      temporal := fun t ht => Formula.mem_parts_toDnf_iff ht
      distribute_eq := Formula.distribute_of_isDistributed hdist
      nnf_eq := hneg.nnf_eq
      toDnf_eq := ?_ }
  · rw [Function.iterate_succ_apply']
    exact Formula.map_distribute_ne nameOf (hbefore m hm)
  · have hagain : f.toDnf.toDnf = f.toDnf.nnf.distributeAll := rfl
    rw [hagain, hneg.nnf_eq, Formula.distributeAll, dif_pos hdist]

/-- A pass distributes over the disjunction that appears when the negations are moved down; the
negation of a conjunction inside the temporal formula stays. -/
theorem toDnf_normal_always :
    let t : Formula String := .unary .always (.neg (.and (.atom "a") (.atom "b")))
    let f : Formula String := .neg (.or (.atom "a") (.neg (.or (.atom "b") t)))
    let d : Formula String :=
      .or (.and (.neg (.atom "a")) (.atom "b")) (.and (.neg (.atom "a")) t)
    f.toDnf = d ∧ t ∈ f.parts ∧ d.toDnf = d ∧
      ∀ k ∈ (Formula.neg (.atom "a")).parts ++ t.parts, k.isOr = false := by
  intro t f d
  have hd : f.toDnf = d := by decide +kernel
  have hnormal := toDnf_normal f
  rw [hd] at hnormal
  exact ⟨hd, (hnormal.temporal t rfl).mp (by decide), hnormal.toDnf_eq,
    hnormal.below_and _ _ (by decide)⟩

end PlanConstraints

import PlanConstraints.Formula.Basic

set_option autoImplicit false

/-!
# Formula: disjunctive normal form

Negations are first moved down to the atoms; then conjunctions are distributed over disjunctions,
pass by pass, until no conjunction has a disjunction as an operand.

Main statement: a pass that changes the formula makes its weight smaller, so that the passes end.
-/

namespace PlanConstraints

namespace Formula

variable {α : Type}

/-- Moves negations down to the atoms and the temporal operators, which are left as they are. -/
def nnf : Formula α → Formula α
  | .unary .neg f => f.nnf.negate
  | .binary .and f g => .and f.nnf g.nnf
  | .binary .or f g => .or f.nnf g.nnf
  | f => f

/-! ## Distribution -/

/-- The conjunction of two formulas, distributed over the second one if that is a disjunction, and
otherwise over the first one if that is. -/
def distributeAnd (f : Formula α) : Formula α → Formula α
  | .binary .or a b => .or (.and f a) (.and f b)
  | g =>
    match f with
    | .binary .or a b => .or (.and a g) (.and b g)
    | f => .and f g

/-- One pass of distribution, from the leaves to the root. -/
def distribute : Formula α → Formula α
  | .binary .and f g => distributeAnd f.distribute g.distribute
  | .binary .or f g => .or f.distribute g.distribute
  | f => f

def isOr : Formula α → Bool
  | .binary .or _ _ => true
  | _ => false

/-- No conjunction reached through conjunctions and disjunctions has a disjunction as an operand. -/
def isDistributed : Formula α → Bool
  | .binary .and f g => !f.isOr && !g.isOr && f.isDistributed && g.isDistributed
  | .binary .or f g => f.isDistributed && g.isDistributed
  | _ => true

/-- A number that every effective step of distribution makes smaller: conjunctions multiply. -/
def weight : Formula α → Nat
  | .binary .and f g => f.weight * g.weight
  | .binary .or f g => f.weight + g.weight + 1
  | _ => 2

theorem two_le_weight (f : Formula α) : 2 ≤ f.weight := by
  induction f with
  | const b => simp [weight]
  | atom a => simp [weight]
  | unary op f ih => simp [weight]
  | binary op f g ihf ihg =>
    cases op with
    | and =>
      rw [weight]
      calc 2 ≤ 2 * 2 := by decide
        _ ≤ f.weight * g.weight := Nat.mul_le_mul ihf ihg
    | or => rw [weight]; omega
    | strongUntil => simp [weight]
    | weakUntil => simp [weight]

theorem isOr_eq_false {f : Formula α} (h : ∀ a b, f = .or a b → False) : f.isOr = false := by
  unfold isOr
  split
  · next a b => exact absurd rfl (h a b)
  · rfl

/-- A distribution at the root loses weight if one of the operands is a disjunction. -/
theorem weight_distributeAnd_lt {f g : Formula α} (h : (f.isOr || g.isOr) = true) :
    (distributeAnd f g).weight < f.weight * g.weight := by
  have hf := two_le_weight f
  have hg := two_le_weight g
  unfold distributeAnd
  split
  · next a b =>
    have : f.weight * (a.weight + b.weight + 1)
        = f.weight * a.weight + f.weight * b.weight + f.weight := by
      rw [Nat.mul_add, Nat.mul_add, Nat.mul_one]
    simp only [weight]
    omega
  · next g' hor =>
    split
    · next a b =>
      have : (a.weight + b.weight + 1) * g.weight
          = a.weight * g.weight + b.weight * g.weight + g.weight := by
        rw [Nat.add_mul, Nat.add_mul, Nat.one_mul]
      simp only [weight]
      omega
    · next f' hor' => simp [isOr_eq_false hor, isOr_eq_false hor'] at h

theorem distributeAnd_of_not_or {f g : Formula α} (hf : f.isOr = false) (hg : g.isOr = false) :
    distributeAnd f g = .and f g := by
  unfold distributeAnd
  split
  · simp [isOr] at hg
  · split
    · simp [isOr] at hf
    · rfl

theorem weight_distributeAnd_le (f g : Formula α) :
    (distributeAnd f g).weight ≤ f.weight * g.weight := by
  cases h : f.isOr || g.isOr with
  | true => exact Nat.le_of_lt (weight_distributeAnd_lt h)
  | false =>
    simp only [Bool.or_eq_false_iff] at h
    exact Nat.le_of_eq (by rw [distributeAnd_of_not_or h.1 h.2, weight])

/-- A pass never adds weight. -/
theorem weight_distribute_le (f : Formula α) : f.distribute.weight ≤ f.weight := by
  induction f with
  | const b => exact Nat.le_refl _
  | atom a => exact Nat.le_refl _
  | unary op f ih => exact Nat.le_refl _
  | binary op f g ihf ihg =>
    cases op with
    | and => exact Nat.le_trans (weight_distributeAnd_le _ _) (Nat.mul_le_mul ihf ihg)
    | or => rw [distribute, weight, weight]; omega
    | strongUntil => exact Nat.le_refl _
    | weakUntil => exact Nat.le_refl _

/-- A pass leaves a distributed formula as it is. -/
theorem distribute_of_isDistributed {f : Formula α} (h : f.isDistributed = true) :
    f.distribute = f := by
  induction f with
  | const b => rfl
  | atom a => rfl
  | unary op f ih => rfl
  | binary op f g ihf ihg =>
    cases op with
    | and =>
      simp only [isDistributed, Bool.and_eq_true, Bool.not_eq_true'] at h
      obtain ⟨⟨⟨hf, hg⟩, df⟩, dg⟩ := h
      rw [distribute, ihf df, ihg dg, distributeAnd_of_not_or hf hg]
    | or =>
      simp only [isDistributed, Bool.and_eq_true] at h
      rw [distribute, ihf h.1, ihg h.2]
    | strongUntil => rfl
    | weakUntil => rfl

/-- A pass over a formula that is not distributed takes weight away. -/
theorem weight_distribute_lt {f : Formula α} (h : f.isDistributed = false) :
    f.distribute.weight < f.weight := by
  induction f with
  | const b => simp [isDistributed] at h
  | atom a => simp [isDistributed] at h
  | unary op f ih => simp [isDistributed] at h
  | binary op f g ihf ihg =>
    have wf := two_le_weight f
    have wg := two_le_weight g
    have lf := weight_distribute_le f
    have lg := weight_distribute_le g
    cases op with
    | and =>
      rw [distribute, weight]
      cases df : f.isDistributed with
      | false =>
        calc (distributeAnd f.distribute g.distribute).weight
            ≤ f.distribute.weight * g.distribute.weight := weight_distributeAnd_le _ _
          _ ≤ f.distribute.weight * g.weight := Nat.mul_le_mul (Nat.le_refl _) lg
          _ < f.weight * g.weight := Nat.mul_lt_mul_of_pos_right (ihf df) (by omega)
      | true =>
        cases dg : g.isDistributed with
        | false =>
          calc (distributeAnd f.distribute g.distribute).weight
              ≤ f.distribute.weight * g.distribute.weight := weight_distributeAnd_le _ _
            _ ≤ f.weight * g.distribute.weight := Nat.mul_le_mul lf (Nat.le_refl _)
            _ < f.weight * g.weight := Nat.mul_lt_mul_of_pos_left (ihg dg) (by omega)
        | true =>
          rw [distribute_of_isDistributed df, distribute_of_isDistributed dg]
          apply weight_distributeAnd_lt
          cases hf : f.isOr <;> cases hg : g.isOr <;>
            simp [isDistributed, hf, hg, df, dg] at h ⊢
    | or =>
      rw [distribute, weight, weight]
      cases df : f.isDistributed with
      | false => have := ihf df; omega
      | true =>
        have dg : g.isDistributed = false := by simpa [isDistributed, df] using h
        have := ihg dg
        omega
    | strongUntil => simp [isDistributed] at h
    | weakUntil => simp [isDistributed] at h

/-- Repeats passes of distribution until the formula is distributed. -/
def distributeAll (f : Formula α) : Formula α :=
  if _h : f.isDistributed = true then f else distributeAll f.distribute
termination_by f.weight
decreasing_by exact weight_distribute_lt (Bool.eq_false_iff.mpr _h)

/-- The disjunctive normal form.  It may be exponentially larger than the formula. -/
def toDnf (f : Formula α) : Formula α := distributeAll f.nnf

end Formula

end PlanConstraints

import PlanConstraints.Proofs.Formula.NormalForm
import PlanConstraints.Proofs.Formula.Truth
import PlanConstraints.Traverse

set_option autoImplicit false

/-!
# The clauses of a formula

The disjunctive normal form has clauses exactly if the formula is propositional: where no formula is
temporal, negations stand in front of atoms only, and a distributed formula of this kind reads as
clauses.  Together with the truth of normal forms this says what the
clauses mean (`clauses_toDnf`).
-/

namespace PlanConstraints

variable {α : Type}

namespace Formula

/-! ## Propositional formulas -/

theorem isPropositional_and_iff {f g : Formula α} :
    (and f g).isPropositional = true ↔ f.isPropositional = true ∧ g.isPropositional = true := by
  simp only [isPropositional, firstTemporal?, BinaryOp.isTemporal]
  cases f.firstTemporal? <;> simp

theorem isPropositional_or_iff {f g : Formula α} :
    (or f g).isPropositional = true ↔ f.isPropositional = true ∧ g.isPropositional = true := by
  simp only [isPropositional, firstTemporal?, BinaryOp.isTemporal]
  cases f.firstTemporal? <;> simp

theorem isPropositional_negate (f : Formula α) :
    f.negate.isPropositional = f.isPropositional := by
  have hvalue : (∃ b, f.negate.eval (fun _ => true) = .ok b) ↔
      ∃ b, f.eval (fun _ => true) = .ok b := by
    rw [eval_negate]
    cases f.eval (fun _ => true) <;> simp [Except.map]
  rw [Bool.eq_iff_iff, ← eval_isOk_iff (fun _ => true), ← eval_isOk_iff (fun _ => true), hvalue]

/-- A formula is propositional exactly if its normal form is. -/
theorem isPropositional_toDnf (f : Formula α) : f.toDnf.isPropositional = f.isPropositional := by
  rw [Bool.eq_iff_iff, ← eval_isOk_iff fun _ => true, ← eval_isOk_iff fun _ => true]
  simp only [eval_toDnf_eq_ok_iff]

theorem isPropositional_of_isTemporal {f : Formula α} (h : f.isTemporal = true) :
    f.isPropositional = false := by
  cases f with
  | const _ | atom _ => cases h
  | unary op f =>
    have hop : op.isTemporal = true := h
    simp [isPropositional, firstTemporal?, hop]
  | binary op f g =>
    have hop : op.isTemporal = true := h
    simp [isPropositional, firstTemporal?, hop]

/-! ## Reading clauses -/

section

variable [Named α]

/-- A conjunction of literals and constants has literals. -/
theorem exists_literals {f : Formula α} (hprop : f.isPropositional = true) (hneg : f.NegatesUnits)
    (hdist : f.isDistributed = true) (hor : f.isOr = false) : ∃ ls, f.literals = .ok ls := by
  induction f with
  | const b => cases b <;> exact ⟨_, rfl⟩
  | atom a => exact ⟨_, rfl⟩
  | unary op f _ =>
    cases op with
    | neg =>
      rcases negatesUnits_neg_iff.mp hneg with ⟨a, rfl⟩ | htemporal
      · exact ⟨_, rfl⟩
      · have hinside : f.isPropositional = true := hprop
        rw [isPropositional_of_isTemporal htemporal] at hinside
        cases hinside
    | eventually | always | next => cases hprop
  | binary op f g ihf ihg =>
    cases op with
    | and =>
      obtain ⟨hfprop, hgprop⟩ := isPropositional_and_iff.mp hprop
      obtain ⟨hfneg, hgneg⟩ := negatesUnits_and_iff.mp hneg
      simp only [isDistributed, Bool.and_eq_true, Bool.not_eq_true'] at hdist
      obtain ⟨⟨⟨hfor, hgor⟩, hfdist⟩, hgdist⟩ := hdist
      obtain ⟨left, hleft⟩ := ihf hfprop hfneg hfdist hfor
      obtain ⟨right, hright⟩ := ihg hgprop hgneg hgdist hgor
      rw [literals, hleft, hright]
      cases left <;> cases right <;> exact ⟨_, rfl⟩
    | or => cases hor
    | strongUntil | weakUntil => cases hprop

theorem exists_clause {f : Formula α} (hprop : f.isPropositional = true) (hneg : f.NegatesUnits)
    (hdist : f.isDistributed = true) (hor : f.isOr = false) : ∃ cs, f.clause = .ok cs := by
  obtain ⟨ls, hls⟩ := exists_literals hprop hneg hdist hor
  rw [clause, hls]
  cases ls <;> exact ⟨_, rfl⟩

theorem exists_clauses {f : Formula α} (hprop : f.isPropositional = true) (hneg : f.NegatesUnits)
    (hdist : f.isDistributed = true) : ∃ cs, f.clauses = .ok cs := by
  fun_induction clauses f with
  | case1 f g e hf ihf =>
    simp only [isDistributed, Bool.and_eq_true] at hdist
    obtain ⟨cs, hcs⟩ := ihf (isPropositional_or_iff.mp hprop).1 (negatesUnits_or_iff.mp hneg).1
      hdist.1
    rw [hf] at hcs
    cases hcs
  | case2 f g left hf e hg ihf ihg =>
    simp only [isDistributed, Bool.and_eq_true] at hdist
    obtain ⟨cs, hcs⟩ := ihg (isPropositional_or_iff.mp hprop).2 (negatesUnits_or_iff.mp hneg).2
      hdist.2
    rw [hg] at hcs
    cases hcs
  | case3 f g left hf right hg ihf ihg => exact ⟨_, rfl⟩
  | case4 f hor => exact exists_clause hprop hneg hdist (isOr_eq_false hor)

/-- The disjunctive normal form has clauses exactly if the formula is propositional. -/
theorem exists_clauses_toDnf_iff {f : Formula α} :
    (∃ cs, f.toDnf.clauses = .ok cs) ↔ f.isPropositional = true := by
  constructor
  · rintro ⟨cs, hcs⟩
    have hvalue : RespectsNames fun _ : α => true := fun _ _ _ => rfl
    exact (eval_isOk_iff (fun _ => true) f).mp ⟨_, eval_of_clauses_toDnf hvalue hcs⟩
  · intro h
    exact exists_clauses ((isPropositional_toDnf f).trans h) f.negatesUnits_toDnf
      f.isDistributed_toDnf

/-- No clause says the same twice. -/
theorem nodup_of_mem_clauses {f : Formula α} {cs : List (Clause α)} (h : f.clauses = .ok cs) :
    ∀ c ∈ cs, (c.map Literal.key).Nodup := by
  fun_induction clauses f generalizing cs with
  | case1 => cases h
  | case2 => cases h
  | case3 f g left hleft right hright ihf ihg =>
    cases h
    intro c hc
    rcases List.mem_append.mp hc with hc | hc
    · exact ihf hleft c hc
    · exact ihg hright c hc
  | case4 f _ =>
    rw [clause] at h
    cases hls : f.literals with
    | error e => rw [hls] at h; cases h
    | ok ls =>
      rw [hls] at h
      cases ls with
      | none => cases h; simp
      | some ls =>
        cases h
        intro c hc
        rw [List.mem_singleton.mp hc]
        exact nodup_map_distinctBy Literal.key ls

end

end Formula

/-! ## Formulas of clauses -/

theorem Literal.eval_toFormula (value : α → Bool) (l : Literal α) :
    l.toFormula.eval value = .ok (l.holds value) := by
  cases hneg : l.negated <;> simp [toFormula, holds, Formula.eval, hneg]

theorem Clause.eval_foldl_and (value : α → Bool) {f : Formula α} {b : Bool}
    (hf : f.eval value = .ok b) (c : Clause α) :
    (c.foldl (fun f l => Formula.and f l.toFormula) f).eval value = .ok (b && c.holds value) := by
  induction c generalizing f b with
  | nil => simp [hf, holds]
  | cons l c ih =>
    have hstep : (Formula.and f l.toFormula).eval value = .ok (b && l.holds value) := by
      rw [Formula.eval, hf, l.eval_toFormula]
    rw [List.foldl_cons, ih hstep, holds, holds, List.all_cons, Bool.and_assoc]

theorem Clause.eval_toFormula (value : α → Bool) (c : Clause α) :
    (Clause.toFormula c).eval value = .ok (Clause.holds value c) := by
  cases c with
  | nil => rfl
  | cons l c =>
    rw [toFormula, eval_foldl_and value (l.eval_toFormula value), holds, holds, List.all_cons]

namespace Formula

theorem eval_foldl_or (value : α → Bool) {f : Formula α} {b : Bool}
    (hf : f.eval value = .ok b) (cs : List (Clause α)) :
    (cs.foldl (fun f c => or f (Clause.toFormula c)) f).eval value =
      .ok (b || cs.any (Clause.holds value)) := by
  induction cs generalizing f b with
  | nil => simp [hf]
  | cons c cs ih =>
    have hstep : (or f (Clause.toFormula c)).eval value = .ok (b || Clause.holds value c) := by
      rw [eval, hf, Clause.eval_toFormula]
    rw [List.foldl_cons, ih hstep, List.any_cons, Bool.or_assoc]

/-- The formula of clauses is true exactly if one of them is. -/
theorem eval_ofClauses (value : α → Bool) (cs : List (Clause α)) :
    (ofClauses cs).eval value = .ok (cs.any (Clause.holds value)) := by
  cases cs with
  | nil => rfl
  | cons c cs =>
    rw [ofClauses, eval_foldl_or value (Clause.eval_toFormula value c), List.any_cons]

end Formula

/-! ## What clauses mean -/

theorem respectsNames_nameOf [Named α] (names : String → Bool) :
    RespectsNames fun a : α => names (nameOf a) := by
  intro a b h
  simp only [h]

/-- Clauses that contradict themselves may be left out. -/
theorem any_holds_filter_isContradictory [Named α] {value : α → Bool}
    (hvalue : RespectsNames value) (cs : List (Clause α)) :
    (cs.filter fun c => !Clause.isContradictory c).any (Clause.holds value) =
      cs.any (Clause.holds value) := by
  rw [List.any_filter]
  congr 1
  funext c
  cases hc : Clause.isContradictory c with
  | false => rfl
  | true => rw [Clause.holds_eq_false_of_isContradictory hvalue hc, Bool.and_false]

/-- A formula whose truth value is that of a list of clauses is true exactly if one of them is. -/
theorem eval_eq_true_iff_of_any {value : α → Bool} {f : Formula α} {cs : List (Clause α)}
    (h : f.eval value = .ok (cs.any (Clause.holds value))) :
    f.eval value = .ok true ↔ ∃ c ∈ cs, Clause.holds value c = true := by
  rw [h, Except.ok.injEq, List.any_eq_true]

/-- What the clauses of the disjunctive normal form say of a formula.  There are clauses exactly if
the formula is propositional, which is when it has truth values.  Then it is true exactly if one of
the clauses is, the formula made of the clauses has its truth value, also if those that contradict
themselves are left out, and it is false exactly if one of the clauses for its negation is true.

There is no hypothesis: temporal formulas have neither clauses nor truth values, and atoms of the
same name count as one. -/
theorem clauses_toDnf [Named α] (f : Formula α) :
    ((∃ cs, f.toDnf.clauses = .ok cs) ↔ f.isPropositional = true) ∧
      (∀ value : α → Bool, (∃ b, f.eval value = .ok b) ↔ f.isPropositional = true) ∧
      ∀ cs, f.toDnf.clauses = .ok cs →
        (∀ c ∈ cs, (c.map Literal.key).Nodup) ∧
        ∃ negated, f.negate.toDnf.clauses = .ok negated ∧
          ∀ names : String → Bool,
            let value := fun a : α => names (nameOf a)
            let plain := cs.filter fun c => !c.isContradictory
            (f.eval value = .ok true ↔ ∃ c ∈ cs, c.holds value = true) ∧
            ((Formula.ofClauses cs).eval value = .ok true ↔ ∃ c ∈ cs, c.holds value = true) ∧
            (f.eval value = .ok true ↔ ∃ c ∈ plain, c.holds value = true) ∧
            ((Formula.ofClauses plain).eval value = .ok true ↔
              ∃ c ∈ plain, c.holds value = true) ∧
            (f.eval value = .ok false ↔ ∃ c ∈ negated, c.holds value = true) := by
  refine ⟨Formula.exists_clauses_toDnf_iff, fun value => f.eval_isOk_iff value, ?_⟩
  intro cs hcs
  have hnegate : f.negate.isPropositional = true := by
    rw [f.isPropositional_negate]
    exact Formula.exists_clauses_toDnf_iff.mp ⟨cs, hcs⟩
  obtain ⟨negated, hnegated⟩ := Formula.exists_clauses_toDnf_iff.mpr hnegate
  refine ⟨Formula.nodup_of_mem_clauses hcs, negated, hnegated, fun names => ?_⟩
  have hvalue := respectsNames_nameOf (α := α) names
  have heval := Formula.eval_of_clauses_toDnf hvalue hcs
  have hplain := heval
  rw [← any_holds_filter_isContradictory hvalue cs] at hplain
  refine ⟨eval_eq_true_iff_of_any heval, eval_eq_true_iff_of_any (Formula.eval_ofClauses _ cs),
    eval_eq_true_iff_of_any hplain, eval_eq_true_iff_of_any (Formula.eval_ofClauses _ _), ?_⟩
  -- The negation is true exactly where the formula is false.
  have hfalse := eval_eq_true_iff_of_any (Formula.eval_of_clauses_toDnf hvalue hnegated)
  rw [← hfalse, f.eval_negate, heval]
  cases cs.any (Clause.holds fun a => names (nameOf a)) <;> simp [Except.map]

/-- A conjunction with a disjunction: of its two clauses the second contradicts itself. -/
theorem clauses_toDnf_and_or :
    let f : Formula String := .and (.atom "a") (.or (.atom "b") (.neg (.atom "a")))
    let value := fun a : String => a == "a" || a == "b"
    f.toDnf.clauses = .ok [[⟨"a", false⟩, ⟨"b", false⟩], [⟨"a", false⟩, ⟨"a", true⟩]] ∧
      f.eval value = .ok true ∧
        (Formula.ofClauses [[⟨"a", false⟩, ⟨"b", false⟩]]).eval value = .ok true := by
  intro f value
  have hcs : f.toDnf.clauses =
      .ok [[⟨"a", false⟩, ⟨"b", false⟩], [⟨"a", false⟩, ⟨"a", true⟩]] :=
    eq_ok_of_toOption (by decide +kernel)
  obtain ⟨-, negated, -, hmean⟩ := (clauses_toDnf f).2.2 _ hcs
  obtain ⟨htrue, -, -, hplain, -⟩ := hmean fun a => a == "a" || a == "b"
  exact ⟨hcs, htrue.mpr ⟨_, List.mem_cons_self, by decide⟩,
    hplain.mpr ⟨[⟨"a", false⟩, ⟨"b", false⟩], by decide, by decide⟩⟩

end PlanConstraints

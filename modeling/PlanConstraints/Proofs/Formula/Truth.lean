import PlanConstraints.Formula.Clause

set_option autoImplicit false

/-!
# The truth of normal forms

The disjunctive normal form of a formula and the list of its clauses say what the formula says: they
have a truth value exactly if it has one, and then the same one.

A literal is compared by the name of its atom, so assignments have to respect names.
-/

namespace PlanConstraints

variable {α : Type}

namespace Formula

/-! ## Truth of the connectives -/

theorem eval_neg (value : α → Bool) (f : Formula α) :
    (neg f).eval value = (f.eval value).map (!·) := by
  rw [eval]
  cases f.eval value <;> rfl

theorem eval_and_eq_ok_iff {value : α → Bool} {f g : Formula α} {b : Bool} :
    (and f g).eval value = .ok b ↔
      ∃ c d, f.eval value = .ok c ∧ g.eval value = .ok d ∧ b = (c && d) := by
  rw [eval]
  cases f.eval value <;> cases g.eval value <;> simp [eq_comm]

theorem eval_or_eq_ok_iff {value : α → Bool} {f g : Formula α} {b : Bool} :
    (or f g).eval value = .ok b ↔
      ∃ c d, f.eval value = .ok c ∧ g.eval value = .ok d ∧ b = (c || d) := by
  rw [eval]
  cases f.eval value <;> cases g.eval value <;> simp [eq_comm]

theorem eq_const_of_isTrue {f : Formula α} (h : f.isTrue = true) : f = .const true := by
  unfold isTrue at h
  split at h
  · rfl
  · cases h

/-- Other atoms have the values of their images. -/
theorem eval_map {β : Type} (rename : α → β) (value : β → Bool) (f : Formula α) :
    (f.map rename).eval value = f.eval fun a => value (rename a) := by
  induction f with
  | const b => rfl
  | atom a => rfl
  | unary op f ih =>
    cases op with
    | neg => rw [map, eval_neg, eval_neg, ih]
    | eventually => rfl
    | always => rfl
    | next => rfl
  | binary op f g ihf ihg =>
    cases op with
    | and => rw [map, eval, eval, ihf, ihg]
    | or => rw [map, eval, eval, ihf, ihg]
    | strongUntil => rfl
    | weakUntil => rfl

/-- A truth value depends on the values of the atoms only. -/
theorem eval_congr {value value' : α → Bool} {f : Formula α}
    (h : ∀ a ∈ f.atoms, value a = value' a) : f.eval value = f.eval value' := by
  induction f with
  | const b => rfl
  | atom a => rw [eval, eval, h a (List.mem_singleton_self a)]
  | unary op f ih =>
    cases op with
    | neg => rw [eval_neg, eval_neg, ih h]
    | eventually => rfl
    | always => rfl
    | next => rfl
  | binary op f g ihf ihg =>
    obtain ⟨hf, hg⟩ := List.forall_mem_append.mp h
    cases op with
    | and => rw [eval, eval, ihf hf, ihg hg]
    | or => rw [eval, eval, ihf hf, ihg hg]
    | strongUntil => rfl
    | weakUntil => rfl

theorem isPropositional_map {β : Type} (rename : α → β) (f : Formula α) :
    (f.map rename).isPropositional = f.isPropositional := by
  rw [Bool.eq_iff_iff, ← eval_isOk_iff fun _ => false, ← eval_isOk_iff fun _ => false]
  simp only [eval_map]

/-! ## Normal form -/

/-- Moving negations down keeps the truth value. -/
theorem eval_nnf (value : α → Bool) (f : Formula α) : f.nnf.eval value = f.eval value := by
  induction f with
  | const b => rfl
  | atom a => rfl
  | unary op f ih =>
    cases op with
    | neg => rw [nnf, eval_negate, ih, eval_neg]
    | eventually => rfl
    | always => rfl
    | next => rfl
  | binary op f g ihf ihg =>
    cases op with
    | and => rw [nnf, eval, eval, ihf, ihg]
    | or => rw [nnf, eval, eval, ihf, ihg]
    | strongUntil => rfl
    | weakUntil => rfl

/-- The conjunction of a formula with a disjunction. -/
theorem eval_and_or_eq_ok_iff {value : α → Bool} {f g h : Formula α} {b : Bool} :
    (or (and f g) (and f h)).eval value = .ok b ↔ (and f (or g h)).eval value = .ok b := by
  simp only [eval_or_eq_ok_iff, eval_and_eq_ok_iff]
  constructor
  · rintro ⟨_, _, ⟨c, d, hf, hg, rfl⟩, ⟨c', d', hf', hh, rfl⟩, rfl⟩
    rw [hf] at hf'
    cases hf'
    exact ⟨c, d || d', hf, ⟨d, d', hg, hh, rfl⟩, (Bool.and_or_distrib_left c d d').symm⟩
  · rintro ⟨c, _, hf, ⟨d, d', hg, hh, rfl⟩, rfl⟩
    exact ⟨c && d, c && d', ⟨c, d, hf, hg, rfl⟩, ⟨c, d', hf, hh, rfl⟩,
      Bool.and_or_distrib_left c d d'⟩

/-- The conjunction of a disjunction with a formula. -/
theorem eval_or_and_eq_ok_iff {value : α → Bool} {f g h : Formula α} {b : Bool} :
    (or (and f h) (and g h)).eval value = .ok b ↔ (and (or f g) h).eval value = .ok b := by
  simp only [eval_or_eq_ok_iff, eval_and_eq_ok_iff]
  constructor
  · rintro ⟨_, _, ⟨c, d, hf, hh, rfl⟩, ⟨c', d', hg, hh', rfl⟩, rfl⟩
    rw [hh] at hh'
    cases hh'
    exact ⟨c || c', d, ⟨c, c', hf, hg, rfl⟩, hh, (Bool.and_or_distrib_right c c' d).symm⟩
  · rintro ⟨_, d, ⟨c, c', hf, hg, rfl⟩, hh, rfl⟩
    exact ⟨c && d, c' && d, ⟨c, d, hf, hh, rfl⟩, ⟨c', d, hg, hh, rfl⟩,
      Bool.and_or_distrib_right c c' d⟩

theorem eval_distributeAnd_eq_ok_iff {value : α → Bool} {f g : Formula α} {b : Bool} :
    (distributeAnd f g).eval value = .ok b ↔ (and f g).eval value = .ok b := by
  unfold distributeAnd
  split
  · exact eval_and_or_eq_ok_iff
  · split
    · exact eval_or_and_eq_ok_iff
    · rfl

/-- A pass of distribution keeps the truth value. -/
theorem eval_distribute_eq_ok_iff {value : α → Bool} {f : Formula α} {b : Bool} :
    f.distribute.eval value = .ok b ↔ f.eval value = .ok b := by
  induction f generalizing b with
  | const c => rfl
  | atom a => rfl
  | unary op f ih => rfl
  | binary op f g ihf ihg =>
    cases op with
    | and =>
      rw [distribute, eval_distributeAnd_eq_ok_iff]
      simp only [eval_and_eq_ok_iff, ihf, ihg]
    | or =>
      rw [distribute]
      simp only [eval_or_eq_ok_iff, ihf, ihg]
    | strongUntil => rfl
    | weakUntil => rfl

theorem eval_distributeAll_eq_ok_iff {value : α → Bool} {f : Formula α} {b : Bool} :
    f.distributeAll.eval value = .ok b ↔ f.eval value = .ok b := by
  fun_induction distributeAll f with
  | case1 f _ => rfl
  | case2 f _ ih => rw [ih, eval_distribute_eq_ok_iff]

/-- The disjunctive normal form has the truth value of the formula. -/
theorem eval_toDnf_eq_ok_iff {value : α → Bool} {f : Formula α} {b : Bool} :
    f.toDnf.eval value = .ok b ↔ f.eval value = .ok b := by
  rw [toDnf, eval_distributeAll_eq_ok_iff, eval_nnf]

end Formula

/-! ## Clauses -/

/-- Atoms of the same name have the same value. -/
def RespectsNames [Named α] (value : α → Bool) : Prop :=
  ∀ a b, nameOf a = nameOf b → value a = value b

theorem respectsNames_of_name (value : String → Bool) :
    RespectsNames fun a : Symbol => value a.name := by
  intro a b h
  rw [nameOf_symbol, nameOf_symbol] at h
  simp only [h]

section

variable [Named α] {value : α → Bool}

theorem Literal.holds_eq_of_key_eq (hvalue : RespectsNames value) {l m : Literal α}
    (h : l.key = m.key) : l.holds value = m.holds value := by
  simp only [Literal.key, Prod.mk.injEq] at h
  rw [Literal.holds, Literal.holds, hvalue _ _ h.1, h.2]

/-- Keeping each literal once keeps the truth of a clause. -/
theorem Clause.holds_distinctBy (hvalue : RespectsNames value) (c : Clause α) :
    Clause.holds value (distinctBy Literal.key c) = Clause.holds value c := by
  rw [Clause.holds, Clause.holds, Bool.eq_iff_iff, List.all_eq_true, List.all_eq_true]
  constructor
  · intro h l hl
    obtain ⟨m, hm, hkey⟩ := exists_mem_distinctBy Literal.key hl
    rw [← Literal.holds_eq_of_key_eq hvalue hkey]
    exact h m hm
  · intro h l hl
    exact h l (mem_of_mem_distinctBy hl)

/-- A clause with an atom and its negation is never true. -/
theorem Clause.holds_eq_false_of_isContradictory (hvalue : RespectsNames value) {c : Clause α}
    (h : c.isContradictory = true) : Clause.holds value c = false := by
  simp only [Clause.isContradictory, List.any_eq_true, Bool.and_eq_true, decide_eq_true_eq,
    bne_iff_ne, ne_eq] at h
  obtain ⟨l, hl, m, hm, hname, hneg⟩ := h
  rw [Clause.holds, ← Bool.not_eq_true, List.all_eq_true]
  intro hall
  have hfirst := hall l hl
  have hsecond := hall m hm
  rw [Literal.holds, bne_iff_ne] at hfirst hsecond
  rw [hvalue _ _ hname] at hsecond
  revert hneg hfirst hsecond
  cases value l.atom <;> cases l.negated <;> cases m.negated <;> simp

namespace Formula

/-- A conjunction is true exactly if all its literals are. -/
theorem eval_of_literals {f : Formula α} {ls : Option (Clause α)} (h : f.literals = .ok ls) :
    f.eval value = .ok (ls.any (Clause.holds value)) := by
  induction f generalizing ls with
  | const b => cases b <;> cases h <;> rfl
  | atom a => cases h; simp [eval, Clause.holds, Literal.holds]
  | unary op f ih =>
    cases op with
    | neg =>
      cases f with
      | const b => cases b <;> cases h <;> rfl
      | atom a => cases h; simp [eval, Clause.holds, Literal.holds]
      | unary _ _ => cases h
      | binary _ _ _ => cases h
    | eventually => cases h
    | always => cases h
    | next => cases h
  | binary op f g ihf ihg =>
    cases op with
    | and =>
      rw [literals] at h
      cases hf : f.literals with
      | error e => rw [hf] at h; cases h
      | ok left =>
        cases hg : g.literals with
        | error e => rw [hf, hg] at h; cases h
        | ok right =>
          rw [hf, hg] at h
          rw [eval, ihf hf, ihg hg]
          cases left <;> cases right <;> cases h <;> simp [Clause.holds]
    | or => cases h
    | strongUntil => cases h
    | weakUntil => cases h

theorem eval_of_clause (hvalue : RespectsNames value) {f : Formula α} {cs : List (Clause α)}
    (h : f.clause = .ok cs) : f.eval value = .ok (cs.any (Clause.holds value)) := by
  rw [clause] at h
  cases hls : f.literals with
  | error e => rw [hls] at h; cases h
  | ok ls =>
    rw [hls] at h
    rw [eval_of_literals hls]
    cases ls with
    | none => cases h; rfl
    | some ls => cases h; simp [Clause.holds_distinctBy hvalue]

/-- A formula that has clauses is true exactly if one of them is. -/
theorem eval_of_clauses (hvalue : RespectsNames value) {f : Formula α} {cs : List (Clause α)}
    (h : f.clauses = .ok cs) : f.eval value = .ok (cs.any (Clause.holds value)) := by
  fun_induction clauses f generalizing cs with
  | case1 => cases h
  | case2 => cases h
  | case3 f g left hleft right hright ihf ihg =>
    cases h
    rw [eval, ihf hleft, ihg hright, List.any_append]
  | case4 f _ => exact eval_of_clause hvalue h

/-- A formula whose normal form has clauses is true exactly if one of them is. -/
theorem eval_of_clauses_toDnf (hvalue : RespectsNames value) {f : Formula α}
    {cs : List (Clause α)} (h : f.toDnf.clauses = .ok cs) :
    f.eval value = .ok (cs.any (Clause.holds value)) :=
  eval_toDnf_eq_ok_iff.mp (eval_of_clauses hvalue h)

end Formula

end

end PlanConstraints

import PlanConstraints.Proofs.Formula.Clauses

set_option autoImplicit false

/-!
# Clauses of a rebuilt formula

Clauses that are made into a formula are read off it again, in their order and each with its
literals in their order; only the repetitions of a literal within a clause are gone
(`clauses_ofClauses`).  Nothing is asked of the clauses: there may be none, some may be empty and
some may contradict themselves.
-/

namespace PlanConstraints

variable {α : Type}

/-! ## One clause -/

/-- A conjunction is no disjunction. -/
theorem Clause.isOr_foldl_and {f : Formula α} (h : f.isOr = false) (c : Clause α) :
    (c.foldl (fun f l => Formula.and f l.toFormula) f).isOr = false := by
  induction c generalizing f with
  | nil => exact h
  | cons l c ih =>
    rw [List.foldl_cons]
    exact ih rfl

theorem Clause.isOr_toFormula (c : Clause α) : (Clause.toFormula c).isOr = false := by
  cases c with
  | nil => rfl
  | cons l c =>
    apply isOr_foldl_and
    obtain ⟨a, negated⟩ := l
    cases negated <;> rfl

variable [Named α]

theorem Literal.literals_toFormula (l : Literal α) : l.toFormula.literals = .ok (some [l]) := by
  obtain ⟨a, negated⟩ := l
  cases negated <;> rfl

/-- The literals of a conjunction that goes on with those of a clause. -/
theorem Clause.literals_foldl_and {f : Formula α} {ls : Clause α} (h : f.literals = .ok (some ls))
    (c : Clause α) :
    (c.foldl (fun f l => Formula.and f l.toFormula) f).literals = .ok (some (ls ++ c)) := by
  induction c generalizing f ls with
  | nil => rw [List.foldl_nil, h, List.append_nil]
  | cons l c ih =>
    have hstep : (Formula.and f l.toFormula).literals = .ok (some (ls ++ [l])) := by
      rw [Formula.literals, h, l.literals_toFormula]
    rw [List.foldl_cons, ih hstep, List.append_assoc, List.singleton_append]

theorem Clause.literals_toFormula (c : Clause α) :
    (Clause.toFormula c).literals = .ok (some c) := by
  cases c with
  | nil => rfl
  | cons l c => exact literals_foldl_and l.literals_toFormula c

theorem Formula.clauses_of_isOr_eq_false {f : Formula α} (h : f.isOr = false) :
    f.clauses = f.clause := by
  fun_cases clauses f with
  | case1 => cases h
  | case2 => cases h
  | case3 => cases h
  | case4 => rfl

/-- The formula of a clause has that clause, without repetitions. -/
theorem Clause.clauses_toFormula (c : Clause α) :
    (Clause.toFormula c).clauses = .ok [distinctBy Literal.key c] := by
  rw [Formula.clauses_of_isOr_eq_false (isOr_toFormula c), Formula.clause, literals_toFormula]

/-! ## All clauses -/

namespace Formula

/-- The clauses of a disjunction that goes on with those of a list. -/
theorem clauses_foldl_or {f : Formula α} {left : List (Clause α)} (h : f.clauses = .ok left)
    (cs : List (Clause α)) :
    (cs.foldl (fun f c => or f (Clause.toFormula c)) f).clauses =
      .ok (left ++ cs.map (distinctBy Literal.key)) := by
  induction cs generalizing f left with
  | nil => rw [List.foldl_nil, h, List.map_nil, List.append_nil]
  | cons c cs ih =>
    have hstep : (or f (Clause.toFormula c)).clauses =
        .ok (left ++ [distinctBy Literal.key c]) := by
      rw [clauses, h, Clause.clauses_toFormula]
    rw [List.foldl_cons, ih hstep, List.map_cons, List.append_assoc, List.singleton_append]

theorem clauses_ofClauses_eq (cs : List (Clause α)) :
    (ofClauses cs).clauses = .ok (cs.map (distinctBy Literal.key)) := by
  cases cs with
  | nil => rfl
  | cons c cs => exact clauses_foldl_or (Clause.clauses_toFormula c) cs

/-- The formula of a list of clauses has these clauses: all of them, in their order, and each of
them with its literals in their order, of which one that stands in the clause before is left out.
Clauses that are those of a formula have no repetitions, so that the formula made of them has the
very same clauses again.

There is no hypothesis on the clauses: they may be empty, contradict themselves or repeat literals.
-/
theorem clauses_ofClauses (cs : List (Clause α)) :
    (ofClauses cs).clauses =
        .ok (cs.map fun c => c.eraseDupsBy fun l l' => l.key = l'.key) ∧
      ∀ f : Formula α, f.clauses = .ok cs → (ofClauses cs).clauses = .ok cs := by
  constructor
  · rw [clauses_ofClauses_eq]
    congr 1
    apply List.map_congr_left
    intro c _
    exact distinctBy_eq_eraseDupsBy Literal.key c
  · intro f hf
    have hsame : cs.map (distinctBy Literal.key) = cs.map id := by
      apply List.map_congr_left
      intro c hc
      exact distinctBy_eq_self (nodup_of_mem_clauses hf c hc)
    rw [clauses_ofClauses_eq, hsame, List.map_id]

/-- Of an empty clause, one with a repetition and one that contradicts itself, all are read again;
those of a formula are read again as they are. -/
theorem clauses_ofClauses_mixed :
    let cs : List (Clause String) :=
      [[], [⟨"a", false⟩, ⟨"b", true⟩, ⟨"a", false⟩], [⟨"a", false⟩, ⟨"a", true⟩]]
    let distinct : List (Clause String) :=
      [[], [⟨"a", false⟩, ⟨"b", true⟩], [⟨"a", false⟩, ⟨"a", true⟩]]
    (ofClauses cs).clauses = .ok distinct ∧ (ofClauses distinct).clauses = .ok distinct := by
  intro cs distinct
  have hread : (ofClauses cs).clauses = .ok distinct := (clauses_ofClauses cs).1
  exact ⟨hread, (clauses_ofClauses distinct).2 (ofClauses cs) hread⟩

end Formula

end PlanConstraints

import Mathlib.Data.Finset.Lattice.Lemmas
import PlanConstraints.Proofs.Formula.Clauses

set_option autoImplicit false

/-!
# Which atoms the clauses of a formula have

The normal form multiplies conjunctions out, and a clause with a false conjunct is left out.  So an
atom of the formula is in no clause if, wherever it stands, a constant beside it rules the value out
that the atom is there for.  `support` finds the atoms that are left from the formula alone, and
`mem_support_iff` says that they are those of the clauses.  In a formula without constants all atoms
are left.
-/

namespace PlanConstraints

namespace Formula

variable {α : Type}

/-! ## Support -/

/-- The atoms for two operands of which both must have their values, or one of them.  There are none
if the constants do not allow that. -/
def combine (needsBoth : Bool) :
    Option (Finset String) → Option (Finset String) → Option (Finset String)
  | some names, some names' => some (names ∪ names')
  | some names, none => if needsBoth then none else some names
  | none, some names => if needsBoth then none else some names
  | none, none => none

/-- The names of the atoms by which the formula can get the value, if the constants in it allow that
it gets the value at all.  A temporal formula has no value. -/
def support [Named α] (value : Bool) : Formula α → Option (Finset String)
  | .const b => if b = value then some ∅ else none
  | .atom a => some {nameOf a}
  | .unary .neg f => f.support (!value)
  | .binary .and f g => combine value (f.support value) (g.support value)
  | .binary .or f g => combine (!value) (f.support value) (g.support value)
  | .unary _ _ | .binary _ _ _ => none

theorem combine_comm (needsBoth : Bool) (s t : Option (Finset String)) :
    combine needsBoth s t = combine needsBoth t s := by
  cases s <;> cases t <;> simp [combine, Finset.union_comm]

theorem combine_distrib_left (s t u : Option (Finset String)) :
    combine true s (combine false t u) =
      combine false (combine true s t) (combine true s u) := by
  cases s with
  | none => cases t <;> cases u <;> rfl
  | some names =>
    cases t with
    | none => cases u <;> rfl
    | some names' =>
      cases u with
      | none => rfl
      | some names'' => exact congrArg some (Finset.union_union_distrib_left _ _ _)

theorem combine_distrib_right (s t u : Option (Finset String)) :
    combine true (combine false s t) u =
      combine false (combine true s u) (combine true t u) := by
  rw [combine_comm, combine_distrib_left, combine_comm true u s, combine_comm true u t]

theorem combine_assoc (s t u : Option (Finset String)) :
    combine false (combine false s t) u = combine false s (combine false t u) := by
  cases s <;> cases t <;> cases u <;> simp [combine, Finset.union_assoc]

/-! ## Normal form -/

section

variable [Named α]

theorem support_negate (value : Bool) (f : Formula α) :
    f.negate.support value = f.support (!value) := by
  induction f generalizing value with
  | const b => cases b <;> cases value <;> rfl
  | atom a => rfl
  | unary op f ih =>
    cases op with
    | neg => rw [negate, support, Bool.not_not]
    | eventually | always | next => rfl
  | binary op f g ihf ihg =>
    cases op with
    | and => rw [negate, support, support, ihf, ihg]
    | or => rw [negate, support, support, ihf, ihg, Bool.not_not]
    | strongUntil | weakUntil => rfl

theorem support_nnf (value : Bool) (f : Formula α) : f.nnf.support value = f.support value := by
  induction f generalizing value with
  | const b => rfl
  | atom a => rfl
  | unary op f ih =>
    cases op with
    | neg => rw [nnf, support_negate, ih, support]
    | eventually | always | next => rfl
  | binary op f g ihf ihg =>
    cases op with
    | and => rw [nnf, support, support, ihf, ihg]
    | or => rw [nnf, support, support, ihf, ihg]
    | strongUntil | weakUntil => rfl

theorem support_distributeAnd (f g : Formula α) :
    (distributeAnd f g).support true = combine true (f.support true) (g.support true) := by
  unfold distributeAnd
  split
  · next a b => exact (combine_distrib_left _ _ _).symm
  · split
    · next a b => exact (combine_distrib_right _ _ _).symm
    · rfl

/-- Distribution leaves the atoms that can make the formula true as they are.  Those that can make
it false may become more. -/
theorem support_distribute (f : Formula α) : f.distribute.support true = f.support true := by
  induction f with
  | const b => rfl
  | atom a => rfl
  | unary op f ih => rfl
  | binary op f g ihf ihg =>
    cases op with
    | and => rw [distribute, support_distributeAnd, ihf, ihg, support]
    | or => rw [distribute, support, support, ihf, ihg]
    | strongUntil | weakUntil => rfl

theorem support_distributeAll (f : Formula α) :
    f.distributeAll.support true = f.support true := by
  fun_induction distributeAll f with
  | case1 f _ => rfl
  | case2 f _ ih => rw [ih, support_distribute]

theorem support_toDnf (f : Formula α) : f.toDnf.support true = f.support true := by
  rw [toDnf, support_distributeAll, support_nnf]

/-! ## Clauses -/

/-- The names of the atoms of a clause. -/
def clauseNames (c : Clause α) : Finset String := (c.map fun l => nameOf l.atom).toFinset

/-- The names of the atoms of all clauses, if there is a clause. -/
def clausesNames : List (Clause α) → Option (Finset String)
  | [] => none
  | c :: cs => combine false (some (clauseNames c)) (clausesNames cs)

theorem clausesNames_append (cs cs' : List (Clause α)) :
    clausesNames (cs ++ cs') = combine false (clausesNames cs) (clausesNames cs') := by
  induction cs with
  | nil => cases h : clausesNames cs' <;> simp [clausesNames, combine, h]
  | cons c cs ih => rw [List.cons_append, clausesNames, ih, clausesNames, combine_assoc]

theorem mem_clausesNames_iff {cs : List (Clause α)} {name : String} :
    name ∈ (clausesNames cs).getD ∅ ↔ ∃ c ∈ cs, ∃ l ∈ c, nameOf l.atom = name := by
  induction cs with
  | nil => simp [clausesNames]
  | cons c cs ih =>
    have hhead : name ∈ clauseNames c ↔ ∃ l ∈ c, nameOf l.atom = name := by
      rw [clauseNames, List.mem_toFinset, List.mem_map]
    rw [List.exists_mem_cons_iff, ← ih, ← hhead, clausesNames]
    cases clausesNames cs with
    | none => simp [combine]
    | some names => exact Finset.mem_union

/-- Saying a literal once is enough for its atom. -/
theorem clauseNames_distinctBy (c : Clause α) :
    clauseNames (distinctBy Literal.key c) = clauseNames c := by
  have hnames : ∀ c : Clause α,
      c.map (fun l => nameOf l.atom) = (c.map Literal.key).map Prod.fst := by
    intro c
    rw [List.map_map]
    rfl
  apply Finset.ext
  intro name
  rw [clauseNames, clauseNames, List.mem_toFinset, List.mem_toFinset, hnames, hnames,
    List.mem_map, List.mem_map]
  simp only [mem_map_distinctBy]

theorem support_of_literals {f : Formula α} {ls : Option (Clause α)} (h : f.literals = .ok ls) :
    f.support true = ls.map clauseNames := by
  induction f generalizing ls with
  | const b => cases b <;> cases h <;> rfl
  | atom a => cases h; rfl
  | unary op f ih =>
    cases op with
    | neg =>
      cases f with
      | const b => cases b <;> cases h <;> rfl
      | atom a => cases h; rfl
      | unary _ _ | binary _ _ _ => cases h
    | eventually | always | next => cases h
  | binary op f g ihf ihg =>
    cases op with
    | and =>
      rw [literals] at h
      cases hf : f.literals with
      | error e => rw [hf] at h; cases h
      | ok left =>
        cases hg : g.literals with
        | error e => rw [hf, hg] at h; cases h
        | ok right =>
          rw [hf, hg] at h
          rw [support, ihf hf, ihg hg]
          cases left <;> cases right <;> cases h <;> simp [combine, clauseNames]
    | or | strongUntil | weakUntil => cases h

theorem support_of_clause {f : Formula α} {cs : List (Clause α)} (h : f.clause = .ok cs) :
    f.support true = clausesNames cs := by
  rw [clause] at h
  cases hls : f.literals with
  | error e => rw [hls] at h; cases h
  | ok ls =>
    rw [hls] at h
    rw [support_of_literals hls]
    cases ls with
    | none => cases h; rfl
    | some ls =>
      cases h
      rw [Option.map_some, clausesNames, clauseNames_distinctBy]
      rfl

theorem support_of_clauses {f : Formula α} {cs : List (Clause α)} (h : f.clauses = .ok cs) :
    f.support true = clausesNames cs := by
  fun_induction clauses f generalizing cs with
  | case1 => cases h
  | case2 => cases h
  | case3 f g left hleft right hright ihf ihg =>
    cases h
    rw [clausesNames_append, ← ihf hleft, ← ihg hright, support, Bool.not_true]
  | case4 f _ => exact support_of_clause h

/-- The atoms by which a formula can get true are those of the clauses of its normal form. -/
theorem mem_support_iff {f : Formula α} {cs : List (Clause α)} (h : f.toDnf.clauses = .ok cs)
    {name : String} :
    name ∈ (f.support true).getD ∅ ↔ ∃ c ∈ cs, ∃ l ∈ c, nameOf l.atom = name := by
  rw [← support_toDnf, support_of_clauses h, mem_clausesNames_iff]

/-! ## Formulas without constants -/

/-- Without constants every atom can be needed for any value. -/
theorem support_of_no_const {f : Formula α} (hprop : f.isPropositional = true)
    (hconst : ∀ b, .const b ∉ f.parts) (value : Bool) :
    f.support value = some (f.atoms.map nameOf).toFinset := by
  induction f generalizing value with
  | const b => exact absurd (List.mem_singleton_self _) (hconst b)
  | atom a => rfl
  | unary op f ih =>
    cases op with
    | neg => exact ih hprop (fun b hb => hconst b (List.mem_cons_of_mem _ hb)) !value
    | eventually | always | next => cases hprop
  | binary op f g ihf ihg =>
    cases op with
    | and =>
      obtain ⟨hf, hg⟩ := isPropositional_and_iff.mp hprop
      simp only [parts_and, List.mem_cons, List.mem_append, not_or] at hconst
      rw [support, ihf hf (fun b => (hconst b).2.1), ihg hg (fun b => (hconst b).2.2), combine,
        atoms, List.map_append, List.toFinset_append]
    | or =>
      obtain ⟨hf, hg⟩ := isPropositional_or_iff.mp hprop
      simp only [parts_or, List.mem_cons, List.mem_append, not_or] at hconst
      rw [support, ihf hf (fun b => (hconst b).2.1), ihg hg (fun b => (hconst b).2.2), combine,
        atoms, List.map_append, List.toFinset_append]
    | strongUntil | weakUntil => cases hprop

end

end Formula

end PlanConstraints

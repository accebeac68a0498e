import Mathlib.Data.List.Forall2
import PlanConstraints.Automaton.Basic

set_option autoImplicit false

/-!
# Automata that differ in their guards

Renaming atoms changes the guards of an automaton and nothing else (`rel_of_renameAtoms`), and it
fails only where it fails for a guard (`exists_of_renameAtoms_eq_error`).
-/

namespace PlanConstraints

variable {α β ε σ τ : Type}

/-! ## Lists of results -/

/-- The results for a list are those of its elements, each at the place of its element. -/
theorem forall₂_of_traverse {f : σ → Except ε τ} {xs : List σ} {ys : List τ}
    (h : traverse f xs = .ok ys) : List.Forall₂ (fun x y => f x = .ok y) xs ys := by
  induction xs generalizing ys with
  | nil =>
    cases h
    exact .nil
  | cons x xs ih =>
    obtain ⟨y, zs, hy, hzs, rfl⟩ := traverse_cons_eq_ok h
    exact .cons hy (ih hzs)

/-- The error for a list is that of one of its elements. -/
theorem exists_of_traverse_eq_error {f : σ → Except ε τ} {xs : List σ} {e : ε}
    (h : traverse f xs = .error e) : ∃ x ∈ xs, f x = .error e := by
  induction xs with
  | nil => cases h
  | cons x xs ih =>
    unfold traverse at h
    split at h
    · next hx =>
      cases h
      exact ⟨x, List.mem_cons_self, hx⟩
    · split at h
      · next hxs =>
        cases h
        obtain ⟨z, hz, hfz⟩ := ih hxs
        exact ⟨z, List.mem_cons_of_mem x hz, hfz⟩
      · cases h

/-- What stands at a place of the second list is related to what stands there in the first one. -/
theorem exists_of_forall₂ {R : σ → τ → Prop} {xs : List σ} {ys : List τ}
    (h : List.Forall₂ R xs ys) {i : Nat} {y : τ} (hy : ys[i]? = some y) :
    ∃ x, xs[i]? = some x ∧ R x y := by
  induction h generalizing i with
  | nil => simp at hy
  | cons hxy _ ih =>
    cases i with
    | zero =>
      cases hy
      exact ⟨_, rfl, hxy⟩
    | succ i => exact ih hy

theorem exists_mem_of_forall₂ {R : σ → τ → Prop} {xs : List σ} {ys : List τ}
    (h : List.Forall₂ R xs ys) {y : τ} (hy : y ∈ ys) : ∃ x ∈ xs, R x y := by
  obtain ⟨i, hi⟩ := List.mem_iff_getElem?.mp hy
  obtain ⟨x, hx, hxy⟩ := exists_of_forall₂ h hi
  exact ⟨x, List.mem_of_getElem? hx, hxy⟩

/-! ## Automata with related guards -/

/-- The second transition has the ends of the first one, and their guards are related. -/
structure Transition.Rel (R : Formula α → Formula β → Prop) (t : Transition α)
    (u : Transition β) : Prop where
  source : u.source = t.source
  target : u.target = t.target
  guard : R t.guard u.guard

/-- The states are the same up to the guards of their transitions, which are related. -/
structure State.Rel (R : Formula α → Formula β → Prop) (s : State α) (s' : State β) : Prop where
  name : s'.name = s.name
  id : s'.id = s.id
  isInitial : s'.isInitial = s.isInitial
  isAccepting : s'.isAccepting = s.isAccepting
  transitions : List.Forall₂ (Transition.Rel R) s.transitions s'.transitions

/-- The automata are the same up to the guards of their transitions, which are related. -/
structure Automaton.Rel (R : Formula α → Formula β → Prop) (a : Automaton α)
    (b : Automaton β) : Prop where
  name : b.name = a.name
  initial : b.initial = a.initial
  states : List.Forall₂ (State.Rel R) a.states b.states

namespace Automaton

section

variable {R S : Formula α → Formula β → Prop} {a : Automaton α} {b : Automaton β}

/-- The transitions of the automata are related one by one. -/
theorem Rel.transitions (h : Rel R a b) :
    List.Forall₂ (Transition.Rel R) a.transitions b.transitions :=
  List.rel_flatMap h.states fun _ _ hs => hs.transitions

/-- What relates the guards of an automaton to others may be replaced by what follows from it. -/
theorem Rel.imp (h : Rel R a b)
    (himp : ∀ t ∈ a.transitions, ∀ guard, R t.guard guard → S t.guard guard) : Rel S a b := by
  refine ⟨h.name, h.initial, ?_⟩
  refine ((List.forall₂_and_left _ _).mpr ⟨fun s hs => hs, h.states⟩).imp ?_
  rintro s s' ⟨hs, hrel⟩
  refine ⟨hrel.name, hrel.id, hrel.isInitial, hrel.isAccepting, ?_⟩
  refine ((List.forall₂_and_left _ _).mpr ⟨fun t ht => ht, hrel.transitions⟩).imp ?_
  rintro t u ⟨ht, htu⟩
  have hmem : t ∈ a.transitions := List.mem_flatMap.mpr ⟨s, hs, ht⟩
  exact ⟨htu.source, htu.target, himp t hmem u.guard htu.guard⟩

end

/-! ## Renaming atoms -/

variable [Named α] [Named β] {table : List (String × β)} {a : Automaton α} {b : Automaton β}

/-- Renaming atoms renames those of every guard. -/
theorem rel_of_renameAtoms (h : a.renameAtoms table = .ok b) :
    Rel (fun f g => f.renameAtoms table = .ok g) a b := by
  unfold renameAtoms at h
  simp only at h
  split at h
  · cases h
  · next states hstates =>
    cases h
    refine ⟨rfl, rfl, (forall₂_of_traverse hstates).imp fun s s' hs => ?_⟩
    split at hs
    · cases hs
    · next transitions htransitions =>
      cases hs
      refine ⟨rfl, rfl, rfl, rfl, (forall₂_of_traverse htransitions).imp fun t u ht => ?_⟩
      split at ht
      · cases ht
      · next guard hguard =>
        cases ht
        exact ⟨rfl, rfl, hguard⟩

/-- Renaming atoms fails where it fails for a guard. -/
theorem exists_of_renameAtoms_eq_error {e : FormulaError} (h : a.renameAtoms table = .error e) :
    ∃ t ∈ a.transitions, t.guard.renameAtoms table = .error e := by
  unfold renameAtoms at h
  simp only at h
  split at h
  · next hstates =>
    cases h
    obtain ⟨s, hs, hs'⟩ := exists_of_traverse_eq_error hstates
    split at hs'
    · next htransitions =>
      cases hs'
      obtain ⟨t, ht, ht'⟩ := exists_of_traverse_eq_error htransitions
      split at ht'
      · next hguard =>
        cases ht'
        exact ⟨t, List.mem_flatMap.mpr ⟨s, hs, ht⟩, hguard⟩
      · cases ht'
    · cases hs'
  · cases h

end Automaton

end PlanConstraints

import PlanConstraints.Compile.Basic

set_option autoImplicit false

/-!
# Runs of automata

An automaton reads a list of valuations of its atoms, one for each transition.  Next to the state
that it is in, a place also holds the value of the variable for its acceptance: `Place.Moves` says
which transitions the bookkeeping of that variable allows.

If every transition sets the variable, the bookkeeping allows all runs, and the variable tells
whether the state is accepting (`runs_exact_iff`).
-/

namespace PlanConstraints

variable {α : Type}

/-- Steps lead from one state to another, one for each input. -/
def Runs {σ ι : Type} (step : ι → σ → σ → Prop) : σ → List ι → σ → Prop
  | s, [], s' => s = s'
  | s, x :: xs, s' => ∃ mid, step x s mid ∧ Runs step mid xs s'

theorem runs_concat_iff {σ ι : Type} {step : ι → σ → σ → Prop} {s s' : σ} {xs : List ι} {x : ι} :
    Runs step s (xs ++ [x]) s' ↔ ∃ mid, Runs step s xs mid ∧ step x mid s' := by
  induction xs generalizing s with
  | nil =>
    constructor
    · rintro ⟨mid, hstep, rfl⟩
      exact ⟨s, rfl, hstep⟩
    · rintro ⟨mid, rfl, hstep⟩
      exact ⟨s', hstep, rfl⟩
  | cons y ys ih =>
    constructor
    · rintro ⟨next, hfirst, hrest⟩
      obtain ⟨mid, hruns, hstep⟩ := ih.mp hrest
      exact ⟨mid, ⟨next, hfirst, hruns⟩, hstep⟩
    · rintro ⟨mid, ⟨next, hfirst, hruns⟩, hstep⟩
      exact ⟨next, hfirst, ih.mpr ⟨mid, hruns, hstep⟩⟩

/-- The first steps of a run. -/
theorem Runs.take {σ ι : Type} {step : ι → σ → σ → Prop} {s s' : σ} {xs : List ι}
    (h : Runs step s xs s') (n : Nat) : ∃ mid, Runs step s (xs.take n) mid := by
  induction xs generalizing s n with
  | nil => exact ⟨s, by simp [Runs]⟩
  | cons x xs ih =>
    cases n with
    | zero => exact ⟨s, rfl⟩
    | succ n =>
      obtain ⟨next, hstep, hrest⟩ := h
      obtain ⟨mid, hmid⟩ := ih hrest n
      exact ⟨mid, next, hstep, hmid⟩

namespace Automaton

/-- A transition whose guard is true leads from one state to the other. -/
def Moves (a : Automaton α) (value : α → Bool) (q q' : Nat) : Prop :=
  ∃ tr ∈ a.transitions, tr.source = q ∧ tr.target = q' ∧ tr.guard.eval value = .ok true

/-- The state of the number is accepting. -/
def accepts (a : Automaton α) (q : Nat) : Bool := (a.state? q).any State.isAccepting

end Automaton

/-! ## Acceptance -/

namespace Acceptance

/-- A transition into the target sets the variable. -/
def sets (mode : Acceptance) (target : Bool) : Bool := mode = .exact || target

/-- The variable lets a transition from a source to a target happen. -/
def permits (mode : Acceptance) (accepted source target : Bool) : Bool :=
  !mode.sets target || accepted == source

/-- The value of the variable after a transition into the target. -/
def follow (mode : Acceptance) (accepted target : Bool) : Bool :=
  if mode.sets target then target else accepted

@[simp] theorem sets_exact (target : Bool) : sets .exact target = true := rfl

@[simp] theorem sets_targetOnly (target : Bool) : sets .targetOnly target = target := rfl

end Acceptance

/-- Where an automaton stands: its state, and the value of the variable for its acceptance. -/
structure Place where
  state : Nat
  accepted : Bool

/-- Where an automaton starts. -/
def Automaton.start (a : Automaton α) : Place := ⟨a.initial, a.accepts a.initial⟩

/-- A transition whose guard is true, and which the bookkeeping allows, leads from one place to the
other. -/
def Place.Moves (mode : Acceptance) (a : Automaton α) (value : α → Bool) (x y : Place) : Prop :=
  ∃ tr ∈ a.transitions, tr.source = x.state ∧ tr.guard.eval value = .ok true ∧
    mode.permits x.accepted (a.accepts tr.source) (a.accepts tr.target) = true ∧
      y = ⟨tr.target, mode.follow x.accepted (a.accepts tr.target)⟩

/-- Every transition is one of the automaton. -/
theorem Place.Moves.moves {mode : Acceptance} {a : Automaton α} {value : α → Bool} {x y : Place}
    (h : Place.Moves mode a value x y) : a.Moves value x.state y.state := by
  obtain ⟨tr, htr, hsource, hguard, -, rfl⟩ := h
  exact ⟨tr, htr, hsource, rfl, hguard⟩

/-- If every transition sets the variable, it allows every transition and follows the state. -/
theorem Place.moves_exact_iff {a : Automaton α} {value : α → Bool} {x y : Place}
    (hx : x.accepted = a.accepts x.state) :
    Place.Moves .exact a value x y ↔
      a.Moves value x.state y.state ∧ y.accepted = a.accepts y.state := by
  constructor
  · intro h
    refine ⟨h.moves, ?_⟩
    obtain ⟨tr, -, -, -, -, rfl⟩ := h
    rfl
  · rintro ⟨⟨tr, htr, hsource, htarget, hguard⟩, hy⟩
    refine ⟨tr, htr, hsource, hguard, ?_, ?_⟩
    · rw [Acceptance.permits, hx, hsource, beq_self_eq_true, Bool.or_true]
    · rw [htarget]
      cases y
      exact congrArg _ hy

theorem Place.runs_exact_iff {a : Automaton α} {values : List (α → Bool)} {x y : Place}
    (hx : x.accepted = a.accepts x.state) :
    Runs (Place.Moves .exact a) x values y ↔
      Runs a.Moves x.state values y.state ∧ y.accepted = a.accepts y.state := by
  induction values generalizing x with
  | nil =>
    constructor
    · rintro rfl
      exact ⟨rfl, hx⟩
    · rintro ⟨hstate, hy⟩
      cases x
      cases y
      cases hstate
      exact congrArg (Place.mk _) (hx.trans hy.symm)
  | cons value values ih =>
    constructor
    · rintro ⟨mid, hmoves, hruns⟩
      obtain ⟨hmoves, hmid⟩ := (Place.moves_exact_iff hx).mp hmoves
      obtain ⟨hruns, hy⟩ := (ih hmid).mp hruns
      exact ⟨⟨mid.state, hmoves, hruns⟩, hy⟩
    · rintro ⟨⟨mid, hmoves, hruns⟩, hy⟩
      have hmid : (Place.mk mid (a.accepts mid)).accepted = a.accepts mid := rfl
      exact ⟨⟨mid, a.accepts mid⟩, (Place.moves_exact_iff hx).mpr ⟨hmoves, hmid⟩,
        (ih hmid).mpr ⟨hruns, hy⟩⟩

end PlanConstraints

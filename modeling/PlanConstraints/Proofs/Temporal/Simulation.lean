import Mathlib.Tactic.Choose
import PlanConstraints.Proofs.Temporal.Turns

set_option autoImplicit false

/-!
# Runs of the new task

A run of the new task is a run of the task together with runs of all automata over what they observe
(`Outcome.exists_reached`), and every such combination is a run of the new task
(`Outcome.exists_runAt?_of_runs`).  Between the turns of the task, the automata that have moved are
one observation ahead of the others.
-/

namespace PlanConstraints

/-- What is observed after a sequence of operators. -/
def observeAfter (t : Task) (sets : ActionSets) (path : List Nat) : Symbol → Bool :=
  observe t sets path ((t.runAt? path).getD [])

/-- What is observed after each operator of a sequence. -/
def observations (t : Task) (sets : ActionSets) (path : List Nat) : List (Symbol → Bool) :=
  (List.range path.length).map fun j => observeAfter t sets (path.take (j + 1))

@[simp] theorem length_observations (t : Task) (sets : ActionSets) (path : List Nat) :
    (observations t sets path).length = path.length := by
  simp [observations]

theorem observations_concat (t : Task) (sets : ActionSets) (path : List Nat) (i : Nat) :
    observations t sets (path ++ [i]) =
      observations t sets path ++ [observeAfter t sets (path ++ [i])] := by
  rw [observations, List.length_append, List.length_singleton, List.range_succ, List.map_append,
    List.map_singleton]
  congr 1
  · refine List.map_congr_left fun j hj => ?_
    rw [List.take_append_of_le_length (List.mem_range.mp hj)]
  · rw [List.take_of_length_le (by simp)]

namespace Temporal

section

variable {options : CompileOptions} {t : Task} {set : PropertySet}
  {automata : List (Automaton Symbol)} {product : Product} {roles : List Role} {task : Task}
  {mode : Acceptance}

/-! ## From runs of the new task -/

/-- The number of observations that an automaton has made. -/
def Situation.observed (c : Situation) (k : Nat) : Nat :=
  if c.turn = 0 ∨ k + 1 < c.turn then c.path.length else c.path.length - 1

/-- What a run of the new task establishes. -/
structure Reached (mode : Acceptance) (t : Task) (set : PropertySet)
    (automata : List (Automaton Symbol)) (numbers : List Nat) (c : Situation) : Prop where
  path : c.path = t.originals numbers
  run : t.runAt? c.path = some c.state
  turn : c.turn = numbers.length % (automata.length + 1)
  started : c.turn ≠ 0 → c.path ≠ []
  places : ∀ (k : Nat) a, automata[k]? = some a → Runs (Place.Moves mode a) a.start
    ((observations t set.actionSets c.path).take (c.observed k)) (c.places k)

theorem reached_start (mode : Acceptance) (t : Task) (set : PropertySet)
    (automata : List (Automaton Symbol)) : Reached mode t set automata [] (start t automata) where
  path := rfl
  run := rfl
  turn := (Nat.zero_mod _).symm
  started := fun h => absurd rfl h
  places := fun k a ha => by simp [start, ha, observations, Runs]

/-- What is observed in a situation is what is observed after its path. -/
theorem Reached.observe_eq {numbers : List Nat} {c : Situation}
    (h : Reached mode t set automata numbers c) :
    c.observe t set.actionSets = observeAfter t set.actionSets c.path := by
  rw [observeAfter, h.run]
  rfl

theorem Reached.act {numbers : List Nat} {c : Situation} (h : Reached mode t set automata numbers c)
    (hpos : 0 < automata.length) {i : Nat} {op : Operator} (hop : t.operators[i]? = some op)
    (happ : op.isApplicable c.state = true) (hturn : c.turn = 0) :
    Reached mode t set automata (numbers ++ [i]) (c.actInTurn i op) where
  path := by
    rw [Task.originals_concat, if_pos (List.getElem?_eq_some_iff.mp hop).1, ← h.path]
    rfl
  run := Task.runAt?_concat_eq_some_iff.mpr ⟨c.state, op, h.run, hop, happ, rfl⟩
  turn := by
    rw [List.length_append, List.length_singleton, ← Nat.mod_add_mod, ← h.turn, hturn]
    exact (Nat.mod_eq_of_lt (Nat.succ_lt_succ hpos)).symm
  started := fun _ => by simp [Situation.actInTurn, Situation.act]
  places := fun k a ha => by
    have hruns := h.places k a ha
    have hobserved : (c.actInTurn i op).observed k = c.path.length := by
      simp [Situation.observed, Situation.actInTurn, Situation.act]
    rw [Situation.observed, if_pos (.inl hturn), ← length_observations t set.actionSets c.path,
      List.take_length] at hruns
    rw [hobserved]
    show Runs _ _ ((observations t set.actionSets (c.path ++ [i])).take _) (c.places k)
    rw [observations_concat, List.take_left' (length_observations _ _ _)]
    exact hruns

/-- The other automata have made as many observations as before. -/
theorem observed_move_of_ne {c : Situation} {count j k : Nat} (place : Place)
    (hturn : c.turn = k + 1) (hk : k < count) (hj : j < count) (hne : j ≠ k) :
    (c.move (count + 1) k place).observed j = c.observed j := by
  have hpath : (c.move (count + 1) k place).path = c.path := rfl
  have hmoved : (c.move (count + 1) k place).turn = (k + 2) % (count + 1) := rfl
  rw [Situation.observed, Situation.observed, hpath, hmoved, hturn]
  refine if_congr ?_ rfl rfl
  rcases Nat.lt_or_ge (k + 2) (count + 1) with hlt | hge
  · rw [Nat.mod_eq_of_lt hlt]
    omega
  · have hlast : k + 2 = count + 1 := by omega
    rw [hlast, Nat.mod_self]
    omega

/-- The automaton that moves has made all observations. -/
theorem observed_move_self {c : Situation} {count k : Nat} (place : Place) (hk : k < count) :
    (c.move (count + 1) k place).observed k = c.path.length := by
  have hpath : (c.move (count + 1) k place).path = c.path := rfl
  have hmoved : (c.move (count + 1) k place).turn = (k + 2) % (count + 1) := rfl
  rw [Situation.observed, hpath, hmoved]
  refine if_pos ?_
  rcases Nat.lt_or_ge (k + 2) (count + 1) with hlt | hge
  · rw [Nat.mod_eq_of_lt hlt]
    omega
  · have hlast : k + 2 = count + 1 := by omega
    rw [hlast, Nat.mod_self]
    omega

theorem Reached.move {numbers : List Nat} {c : Situation}
    (h : Reached mode t set automata numbers c) {i k : Nat} {a : Automaton Symbol} {place : Place}
    (hi : t.operators.length ≤ i) (ha : automata[k]? = some a) (hturn : c.turn = k + 1)
    (hmoves : Place.Moves mode a (c.observe t set.actionSets) (c.places k) place) :
    Reached mode t set automata (numbers ++ [i]) (c.move (automata.length + 1) k place) where
  path := by
    rw [Task.originals_concat, if_neg (Nat.not_lt.mpr hi), List.append_nil]
    exact h.path
  run := h.run
  turn := by
    rw [List.length_append, List.length_singleton, ← Nat.mod_add_mod, ← h.turn, hturn]
    rfl
  started := fun _ => h.started (by rw [hturn]; exact Nat.succ_ne_zero k)
  places := fun j b hb => by
    have hk : k < automata.length := (List.getElem?_eq_some_iff.mp ha).1
    have hj : j < automata.length := (List.getElem?_eq_some_iff.mp hb).1
    show Runs _ _ ((observations t set.actionSets c.path).take _)
      (if j = k then place else c.places j)
    by_cases hjk : j = k
    · subst hjk
      rw [ha] at hb
      cases hb
      have hruns := h.places j a ha
      rw [h.observe_eq] at hmoves
      have hobserved : c.observed j = c.path.length - 1 := by
        rw [Situation.observed, if_neg (by omega)]
      obtain ⟨front, last, hpath⟩ : ∃ front last, c.path = front ++ [last] :=
        ⟨_, _, (List.dropLast_concat_getLast (h.started (by omega))).symm⟩
      rw [hobserved, hpath, observations_concat, List.length_append, List.length_singleton,
        Nat.add_sub_cancel, List.take_left' (length_observations _ _ _)] at hruns
      rw [observed_move_self place hk, if_pos rfl,
        ← length_observations t set.actionSets c.path, List.take_length, hpath, observations_concat]
      rw [hpath] at hmoves
      exact runs_concat_iff.mpr ⟨_, hruns, hmoves⟩
    · rw [observed_move_of_ne place hturn hk hj hjk, if_neg hjk]
      exact h.places j b hb

/-- Every step keeps what has been established. -/
theorem Reached.step {numbers : List Nat} {c c' : Situation} {i : Nat}
    (h : Reached mode t set automata numbers c) (hpos : 0 < automata.length)
    (hstep : Step mode t set.actionSets automata c i c') :
    Reached mode t set automata (numbers ++ [i]) c' := by
  cases hstep with
  | act hop happ hturn => exact h.act hpos hop happ hturn
  | move hi ha hturn hmoves => exact h.move hi ha hturn hmoves

theorem Outcome.init (o : Outcome options t set automata product roles task) :
    task.init = (start t automata).encode t roles := by
  rw [o.task_eq]
  exact o.built.layout.init

/-- Every state that the new task reaches is that of a situation. -/
theorem Outcome.exists_reached (o : Outcome options t set automata product roles task)
    {numbers : List Nat} {s : Assignment} (h : task.runAt? numbers = some s) :
    ∃ c, s = c.encode t roles ∧ Reached options.acceptance t set automata numbers c := by
  induction numbers using List.reverseRecOn generalizing s with
  | nil =>
    cases h
    exact ⟨start t automata, o.init, reached_start _ t set automata⟩
  | append_singleton numbers i ih =>
    obtain ⟨_, op, hs, hop, happ, rfl⟩ := Task.runAt?_concat_eq_some_iff.mp h
    obtain ⟨c, rfl, hreached⟩ := ih hs
    have hc := Task.isState_of_runAt? o.consistent hreached.run
    obtain ⟨c', hstep, hnext⟩ := o.step_of_isApplicable hc hop happ
    exact ⟨c', hnext, hreached.step o.pos hstep⟩

/-! ## To runs of the new task -/

/-- The first automata have moved to their places, and the next of `total` has the turn. -/
def Situation.moveFirst (c : Situation) (total : Nat) (places : Nat → Place) (count : Nat) :
    Situation :=
  { c with
    turn := (count + 1) % total
    places := fun k => if k < count then places k else c.places k }

theorem moveFirst_zero {c : Situation} {total : Nat} (htotal : 1 < total) (hturn : c.turn = 1)
    (places : Nat → Place) : c.moveFirst total places 0 = c := by
  have hone : (0 + 1) % total = c.turn := by rw [hturn, Nat.mod_eq_of_lt htotal]
  rw [Situation.moveFirst, hone]
  simp

theorem moveFirst_succ (c : Situation) (total : Nat) (places : Nat → Place) (count : Nat) :
    (c.moveFirst total places count).move total count (places count) =
      c.moveFirst total places (count + 1) := by
  have hplaces : (fun k => if k = count then places count else
      if k < count then places k else c.places k) =
        fun k => if k < count + 1 then places k else c.places k := by
    funext k
    rcases Nat.lt_trichotomy k count with hk | hk | hk
    · rw [if_neg (Nat.ne_of_lt hk), if_pos hk, if_pos (Nat.lt_succ_of_lt hk)]
    · rw [if_pos hk, hk, if_pos (Nat.lt_succ_self count)]
    · rw [if_neg (Nat.ne_of_gt hk), if_neg (by omega), if_neg (by omega)]
  exact congrArg (Situation.mk c.path c.state ((count + 2) % total)) hplaces

/-- The automata move one after the other. -/
theorem Outcome.exists_runAt?_moveFirst (o : Outcome options t set automata product roles task)
    {c : Situation} (hc : t.IsState c.state) {numbers : List Nat}
    (hrun : task.runAt? numbers = some (c.encode t roles)) (hturn : c.turn = 1)
    {places : Nat → Place}
    (hmoves : ∀ (k : Nat) a, automata[k]? = some a → Place.Moves options.acceptance a
      (c.observe t set.actionSets) (c.places k) (places k)) {count : Nat}
    (hcount : count ≤ automata.length) :
    ∃ more, (∀ i ∈ more, t.operators.length ≤ i) ∧ task.runAt? (numbers ++ more) =
      some ((c.moveFirst (automata.length + 1) places count).encode t roles) := by
  induction count with
  | zero =>
    refine ⟨[], by simp, ?_⟩
    rw [List.append_nil, moveFirst_zero (Nat.succ_lt_succ o.pos) hturn]
    exact hrun
  | succ count ih =>
    obtain ⟨more, hmore, hrun'⟩ := ih (Nat.le_of_succ_le hcount)
    have ha := List.getElem?_eq_getElem (l := automata) hcount
    have hturn' : (c.moveFirst (automata.length + 1) places count).turn = count + 1 :=
      Nat.mod_eq_of_lt (Nat.succ_lt_succ hcount)
    have hplace : (c.moveFirst (automata.length + 1) places count).places count =
        c.places count := if_neg (Nat.lt_irrefl count)
    have hmoves' := hmoves count _ ha
    rw [← hplace] at hmoves'
    have hc' : t.IsState (c.moveFirst (automata.length + 1) places count).state := hc
    obtain ⟨i, hi, hnext⟩ := o.exists_runAt?_move hc' hrun' ha hturn' hmoves'
    rw [moveFirst_succ, List.append_assoc] at hnext
    refine ⟨more ++ [i], fun i' hi' => ?_, hnext⟩
    rcases List.mem_append.mp hi' with hi' | hi'
    · exact hmore i' hi'
    · rw [List.mem_singleton.mp hi']
      exact hi

/-- A run of the task, with runs of all automata over what they observe, is a run of the new task
that ends in the turn of the task. -/
theorem Outcome.exists_runAt?_of_runs (o : Outcome options t set automata product roles task)
    {path : List Nat} {s : Assignment} (hrun : t.runAt? path = some s) {places : Nat → Place}
    (hruns : ∀ (k : Nat) a, automata[k]? = some a → Runs (Place.Moves options.acceptance a) a.start
      (observations t set.actionSets path) (places k)) :
    ∃ (numbers : List Nat) (c : Situation), task.runAt? numbers = some (c.encode t roles) ∧
      t.originals numbers = path ∧ c.path = path ∧ c.state = s ∧ c.turn = 0 ∧
        ∀ k < automata.length, c.places k = places k := by
  induction path using List.reverseRecOn generalizing s places with
  | nil =>
    cases hrun
    refine ⟨[], start t automata, congrArg some o.init, rfl, rfl, rfl, rfl, fun k hk => ?_⟩
    have hplace : automata[k].start = places k := hruns k _ (List.getElem?_eq_getElem hk)
    simp [start, hk, hplace]
  | append_singleton path i ih =>
    obtain ⟨s', op, hrun', hop, happ, rfl⟩ := Task.runAt?_concat_eq_some_iff.mp hrun
    have hmid : ∀ k, ∃ mid, ∀ a, automata[k]? = some a →
        Runs (Place.Moves options.acceptance a) a.start (observations t set.actionSets path) mid ∧
          Place.Moves options.acceptance a (observeAfter t set.actionSets (path ++ [i])) mid
            (places k) := by
      intro k
      cases ha : automata[k]? with
      | none => exact ⟨places k, fun _ h => by cases h⟩
      | some a =>
        have hruns' := hruns k a ha
        rw [observations_concat] at hruns'
        obtain ⟨mid, hfirst, hlast⟩ := runs_concat_iff.mp hruns'
        refine ⟨mid, fun b hb => ?_⟩
        cases hb
        exact ⟨hfirst, hlast⟩
    choose mid hmid using hmid
    obtain ⟨numbers, c, hnumbers, horiginals, rfl, rfl, hturn, hplaces⟩ :=
      ih hrun' fun k a ha => (hmid k a ha).1
    have hc := Task.isState_of_runAt? o.consistent hrun'
    have hc' : t.IsState (c.actInTurn i op).state := Task.isState_of_runAt? o.consistent hrun
    have hobserve : (c.actInTurn i op).observe t set.actionSets =
        observeAfter t set.actionSets (c.path ++ [i]) := by
      rw [observeAfter, hrun]
      rfl
    have hmoves : ∀ (k : Nat) a, automata[k]? = some a → Place.Moves options.acceptance a
        ((c.actInTurn i op).observe t set.actionSets) ((c.actInTurn i op).places k) (places k) := by
      intro k a ha
      have hplace := hplaces k (List.getElem?_eq_some_iff.mp ha).1
      rw [hobserve]
      exact hplace ▸ (hmid k a ha).2
    obtain ⟨more, hmore, hfinal⟩ := o.exists_runAt?_moveFirst hc'
      (o.runAt?_act hc hnumbers hop happ hturn) rfl hmoves (Nat.le_refl _)
    refine ⟨_, _, hfinal, ?_, rfl, rfl, Nat.mod_self _, fun k hk => if_pos hk⟩
    rw [Task.originals_append, Task.originals_concat, horiginals,
      if_pos (List.getElem?_eq_some_iff.mp hop).1, t.originals_eq_nil hmore, List.append_nil]

end

end Temporal

end PlanConstraints

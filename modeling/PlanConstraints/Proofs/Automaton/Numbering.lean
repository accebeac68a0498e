import PlanConstraints.Compile.Temporal
import PlanConstraints.Proofs.Automaton.Renaming

set_option autoImplicit false

/-!
# The numbers of states

In the automaton of a never-claim every state has its place as its number, its transitions leave it,
and they lead to states that exist.  Every line that is read keeps this, and so does renaming atoms.
-/

namespace PlanConstraints

variable {α β : Type}

/-- Every state has its place as its number, and its transitions lead from it to states. -/
def NumberedStates (states : List (State α)) : Prop :=
  ∀ (i : Nat) (s : State α), states[i]? = some s →
    s.id = i ∧ ∀ tr ∈ s.transitions, tr.source = i ∧ tr.target < states.length

/-- The states are numbered, and one of them is initial. -/
structure Automaton.Numbered (a : Automaton α) : Prop where
  states : NumberedStates a.states
  initial : a.initial < a.states.length

namespace Automaton

/-- A transition leads from a state to a state, whose numbers it tells. -/
theorem Numbered.exists_states {a : Automaton α} (ha : a.Numbered) {tr : Transition α}
    (htr : tr ∈ a.transitions) :
    ∃ source target, a.state? tr.source = some source ∧ a.state? tr.target = some target ∧
      source.id = tr.source ∧ target.id = tr.target := by
  obtain ⟨s, hs, htr⟩ := List.mem_flatMap.mp htr
  obtain ⟨i, hi⟩ := List.mem_iff_getElem?.mp hs
  obtain ⟨hid, htransitions⟩ := ha.states i s hi
  obtain ⟨hsource, htarget⟩ := htransitions tr htr
  have hget := List.getElem?_eq_getElem htarget
  exact ⟨s, _, hsource ▸ hi, hget, hid.trans hsource.symm, (ha.states _ _ hget).1⟩

end Automaton

/-! ## Reading a never-claim -/

namespace NeverClaim

namespace Draft

/-- The states that were read are numbered, and the current one is among them. -/
structure Numbered (d : Draft) : Prop where
  states : NumberedStates d.states
  current : ∀ i, d.current = some i → i < d.states.length

/-- Naming a state gives the number of a state, and keeps those that there are. -/
theorem Numbered.mention {d : Draft} (hd : d.Numbered) (name : String) :
    (d.mention name).1.Numbered ∧ (d.mention name).2 < (d.mention name).1.states.length ∧
      d.states.length ≤ (d.mention name).1.states.length := by
  unfold Draft.mention
  split
  · next s hs =>
    obtain ⟨i, hi⟩ := List.mem_iff_getElem?.mp (List.mem_of_find?_eq_some hs)
    refine ⟨hd, ?_, Nat.le_refl _⟩
    rw [(hd.states i s hi).1]
    exact (List.getElem?_eq_some_iff.mp hi).1
  · simp only [List.length_append, List.length_singleton]
    refine ⟨⟨?_, fun i hi => ?_⟩, Nat.lt_succ_self _, Nat.le_succ _⟩
    · intro i s hs
      rw [List.length_append, List.length_singleton]
      rcases Nat.lt_or_ge i d.states.length with hi | hi
      · rw [List.getElem?_append_left hi] at hs
        obtain ⟨hid, htransitions⟩ := hd.states i s hs
        exact ⟨hid, fun tr htr => ⟨(htransitions tr htr).1,
          Nat.lt_succ_of_lt (htransitions tr htr).2⟩⟩
      · rw [List.getElem?_append_right hi, List.getElem?_singleton] at hs
        split at hs
        · next hzero =>
          cases hs
          exact ⟨Nat.le_antisymm hi (Nat.le_of_sub_eq_zero hzero), by simp⟩
        · cases hs
    · rw [List.length_append, List.length_singleton]
      exact Nat.lt_succ_of_lt (hd.current i hi)

/-- A transition is added to its source only. -/
theorem Numbered.addTransition {d : Draft} (hd : d.Numbered) {tr : Transition String}
    (htarget : tr.target < d.states.length) : (d.addTransition tr).Numbered := by
  refine ⟨?_, fun i hi => ?_⟩
  · intro i s hs
    unfold Draft.addTransition at hs ⊢
    rw [List.getElem?_map, Option.map_eq_some_iff] at hs
    obtain ⟨s', hs', rfl⟩ := hs
    obtain ⟨hid, htransitions⟩ := hd.states i s' hs'
    rw [List.length_map]
    split
    · next hsource =>
      refine ⟨hid, fun tr' htr' => ?_⟩
      rcases List.mem_append.mp htr' with htr' | htr'
      · exact htransitions tr' htr'
      · rw [List.mem_singleton.mp htr']
        exact ⟨hsource.symm.trans hid, htarget⟩
    · exact ⟨hid, htransitions⟩
  · have hlen : (d.addTransition tr).states.length = d.states.length := List.length_map _
    rw [hlen]
    exact hd.current i hi

/-- A transition without a guard leads from the current state to itself. -/
theorem Numbered.addSkip {d : Draft} (hd : d.Numbered) {i : Nat} (hi : d.current = some i) :
    (d.addTransition ⟨i, i, .const true⟩).Numbered := hd.addTransition (hd.current i hi)

/-- A line leaves the states as they are, or it adds a transition to the current one. -/
theorem readBody_eq_ok {d d' : Draft} {line : Line} {body : Piece}
    (h : d.readBody line body = .ok d') :
    d' = d ∨ d' = { d with current := none } ∨
      (∃ i, d.current = some i ∧ d' = d.addTransition ⟨i, i, .const true⟩) ∨
        ∃ i guard target f, d.current = some i ∧ transition? body = some (guard, target) ∧
          Guard.ofText guard.text = .ok f ∧
            d' = (d.mention target).1.addTransition ⟨i, (d.mention target).2, f⟩ := by
  unfold Draft.readBody at h
  split at h
  · cases h; exact .inl rfl
  · cases h; exact .inl rfl
  · cases h; exact .inl rfl
  · cases h; exact .inl rfl
  · cases h; exact .inl rfl
  · cases h; exact .inr (.inl rfl)
  · cases h; exact .inr (.inl rfl)
  · split at h
    · cases h
    · next i hi => cases h; exact .inr (.inr (.inl ⟨i, hi, rfl⟩))
  · split at h
    · cases h
    · next i hi => cases h; exact .inr (.inr (.inl ⟨i, hi, rfl⟩))
  · split at h
    · cases h; exact .inl rfl
    · split at h
      · split at h
        · cases h
        · next i hi =>
          split at h
          · cases h
          · next guard target htransition =>
            split at h
            · cases h
            · next f hguard =>
              cases h
              exact .inr (.inr (.inr ⟨i, guard, target, f, hi, htransition, hguard, rfl⟩))
      · cases h

theorem Numbered.readBody {d d' : Draft} (hd : d.Numbered) {line : Line} {body : Piece}
    (h : d.readBody line body = .ok d') : d'.Numbered := by
  rcases readBody_eq_ok h with rfl | rfl | ⟨i, hi, rfl⟩ | ⟨i, guard, target, f, hi, -, -, rfl⟩
  · exact hd
  · exact ⟨hd.states, fun _ hi => by cases hi⟩
  · exact hd.addSkip hi
  · obtain ⟨hnumbered, htarget, -⟩ := hd.mention target
    exact hnumbered.addTransition htarget

/-- Behind a header the state of its name is the current one. -/
theorem Numbered.enter {d : Draft} (hd : d.Numbered) (name : String) :
    Numbered ⟨(d.mention name).1.states, some (d.mention name).2⟩ := by
  obtain ⟨hnumbered, hlt, -⟩ := hd.mention name
  refine ⟨hnumbered.states, fun i hi => ?_⟩
  cases hi
  exact hlt

end Draft

/-- The automaton of a never-claim is made of a draft, which has every property that holds at first
and is kept by headers and by what lines hold besides them. -/
theorem exists_draft {name : String} {input : Input} {a : Automaton String}
    (h : toAutomaton name input = .ok a) (P : Draft → Prop) (start : P ⟨[], none⟩)
    (enter : ∀ {d : Draft} {p : Piece} {state : String} {body : Piece}, P d →
      header? p = some (state, body) → P ⟨(d.mention state).1.states, some (d.mention state).2⟩)
    (readBody : ∀ {d d' : Draft} {line : Line} {body : Piece}, P d →
      d.readBody line body = .ok d' → P d') :
    ∃ d, P d ∧ ∃ s ∈ d.states, a = ⟨name, d.states, s.id⟩ := by
  unfold toAutomaton at h
  split at h
  · cases h
  · next d hd =>
    have hread : P d := by
      refine foldSteps_invariant P hd start fun line _ u u' hu hstep => ?_
      unfold Draft.readLine at hstep
      simp only at hstep
      split at hstep
      · exact readBody hu hstep
      · next hheader => exact readBody (enter hu hheader) hstep
    unfold Draft.toAutomaton at h
    split at h
    · cases h
    · next s hs =>
      cases h
      have hmem : s ∈ d.states := (List.mem_filter.mp (hs ▸ List.mem_singleton_self s)).1
      exact ⟨d, hread, s, hmem, rfl⟩
    · cases h

/-- The automaton of a never-claim is numbered. -/
theorem numbered_toAutomaton {name : String} {input : Input} {a : Automaton String}
    (h : toAutomaton name input = .ok a) : a.Numbered := by
  have hstart : Draft.Numbered ⟨[], none⟩ :=
    ⟨fun _ _ hs => by simp at hs, fun _ hi => by simp at hi⟩
  obtain ⟨d, hd, s, hs, rfl⟩ := exists_draft h Draft.Numbered hstart
    (fun hd _ => hd.enter _) fun hd hread => hd.readBody hread
  obtain ⟨i, hi⟩ := List.mem_iff_getElem?.mp hs
  refine ⟨hd.states, ?_⟩
  rw [(hd.states i s hi).1]
  exact (List.getElem?_eq_some_iff.mp hi).1

end NeverClaim

/-! ## Renaming atoms -/

/-- Other guards keep the numbers of states and the ends of transitions. -/
theorem Automaton.Numbered.rel {R : Formula α → Formula β → Prop} {a : Automaton α}
    {b : Automaton β} (ha : a.Numbered) (h : Automaton.Rel R a b) : b.Numbered where
  states i s hs := by
    obtain ⟨s', hs', hrel⟩ := exists_of_forall₂ h.states hs
    obtain ⟨hid, hends⟩ := ha.states i s' hs'
    refine ⟨hrel.id.trans hid, fun u hu => ?_⟩
    obtain ⟨t, ht, htu⟩ := exists_mem_of_forall₂ hrel.transitions hu
    rw [htu.source, htu.target, ← h.states.length_eq]
    exact hends t ht
  initial := by
    rw [h.initial, ← h.states.length_eq]
    exact ha.initial

/-- The automaton of a property is that of some never-claim, with the atoms of the property. -/
theorem exists_of_automatonOf {translator : Translator} {p : Property} {a : Automaton Symbol}
    (h : automatonOf translator p = .ok a) :
    ∃ (input : Input) (claim : Automaton String),
      NeverClaim.toAutomaton p.name.name input = .ok claim ∧
        Automaton.Rel (fun f g => f.renameAtoms (atomTable p.formula.constants) = .ok g)
          claim a := by
  unfold automatonOf automatonOfAnswer at h
  split at h
  · cases h
  · split at h
    · cases h
    · split at h
      · cases h
      · next claim hclaim =>
        split at h
        · cases h
        · next hrename =>
          cases h
          exact ⟨_, claim, hclaim, Automaton.rel_of_renameAtoms hrename⟩

/-- The automaton of a property is numbered. -/
theorem numbered_automatonOf {translator : Translator} {p : Property} {a : Automaton Symbol}
    (h : automatonOf translator p = .ok a) : a.Numbered := by
  obtain ⟨input, claim, hclaim, hrel⟩ := exists_of_automatonOf h
  exact (NeverClaim.numbered_toAutomaton hclaim).rel hrel

end PlanConstraints

import PlanConstraints.Proofs.Automaton.GenericNames

set_option autoImplicit false

/-!
# Well-formed automata

Whoever follows an automaton looks its states up by their numbers, and its guards are split into
clauses, without any check.  No automaton of a never-claim gives a reason for one
(`wellFormed_toAutomaton`): every line that is read keeps the names of the states apart, and
renaming atoms changes guards only.
-/

namespace PlanConstraints

variable {α β : Type}

/-- Numbers and names tell the states of the automaton apart, one of them is initial, transitions
lead from the state that has them to a state, and every guard has clauses. -/
structure Automaton.WellFormed [Named α] (a : Automaton α) : Prop where
  id : ∀ (i : Nat) (s : State α), a.state? i = some s → s.id = i
  nodup : (a.states.map State.name).Nodup
  named : ∀ s ∈ a.states, a.stateOfName? s.name = some s
  initial : ∃ s, a.states.filter State.isInitial = [s] ∧ a.state? a.initial = some s
  ends : ∀ s ∈ a.states, ∀ t ∈ s.transitions,
    t.source = s.id ∧ ∃ target, a.state? t.target = some target
  guards : ∀ t ∈ a.transitions,
    t.guard.isPropositional = true ∧ ∃ cs, t.guard.toDnf.clauses = .ok cs

/-- What is known of a state without its transitions, and how many of these there are. -/
def State.outline (s : State α) : String × Nat × Bool × Bool × Nat :=
  (s.name, s.id, s.isInitial, s.isAccepting, s.transitions.length)

namespace Automaton

/-- The only state that is initial is the one of the number that the automaton starts with. -/
def StartsOnce (a : Automaton α) : Prop :=
  ∃ s, a.states.filter State.isInitial = [s] ∧ s.id = a.initial

/-- Everything follows from the numbers, the names, the initial state and the guards. -/
theorem wellFormed_of_numbered [Named α] {a : Automaton α} (ha : a.Numbered)
    (hnodup : (a.states.map State.name).Nodup) (hstart : a.StartsOnce)
    (hguards : ∀ t ∈ a.transitions, t.guard.isPropositional = true) : a.WellFormed where
  id i s hs := (ha.states i s hs).1
  nodup := hnodup
  named s hs := find?_of_nodup State.name hnodup hs
  initial := by
    obtain ⟨s, hs, hid⟩ := hstart
    have hmem : s ∈ a.states := (List.mem_filter.mp (hs ▸ List.mem_singleton_self s)).1
    obtain ⟨i, hi⟩ := List.mem_iff_getElem?.mp hmem
    rw [(ha.states i s hi).1] at hid
    exact ⟨s, hs, hid ▸ hi⟩
  ends s hs t ht := by
    obtain ⟨i, hi⟩ := List.mem_iff_getElem?.mp hs
    obtain ⟨hid, hends⟩ := ha.states i s hi
    obtain ⟨hsource, htarget⟩ := hends t ht
    exact ⟨hsource.trans hid.symm, _, List.getElem?_eq_getElem htarget⟩
  guards t ht := ⟨hguards t ht, Formula.exists_clauses_toDnf_iff.mpr (hguards t ht)⟩

end Automaton

/-! ## Reading a never-claim -/

namespace NeverClaim

namespace Draft

/-- No two states that were read have the same name. -/
def Distinct (d : Draft) : Prop := (d.states.map State.name).Nodup

variable {d d' : Draft}

/-- A name that is mentioned again makes no new state. -/
theorem Distinct.mention (hd : d.Distinct) (name : String) : (d.mention name).1.Distinct := by
  unfold Draft.mention
  split
  · exact hd
  · next hnone =>
    have hnew : ∀ other ∈ d.states.map State.name, other ≠ name := by
      intro other hother
      obtain ⟨s, hs, rfl⟩ := List.mem_map.mp hother
      simpa using List.find?_eq_none.mp hnone s hs
    unfold Distinct
    rw [List.map_append, List.nodup_append]
    exact ⟨hd, List.nodup_singleton _, fun other hother n hn =>
      List.mem_singleton.mp hn ▸ hnew other hother⟩

theorem Distinct.addTransition (hd : d.Distinct) (t : Transition String) :
    (d.addTransition t).Distinct := by
  have hnames : (d.addTransition t).states.map State.name = d.states.map State.name := by
    rw [Draft.addTransition, List.map_map]
    refine List.map_congr_left fun s _ => ?_
    simp only [Function.comp_apply]
    split <;> rfl
  unfold Distinct
  rw [hnames]
  exact hd

theorem Distinct.readBody (hd : d.Distinct) {line : Line} {body : Piece}
    (h : d.readBody line body = .ok d') : d'.Distinct := by
  rcases readBody_eq_ok h with rfl | rfl | ⟨i, -, rfl⟩ | ⟨i, guard, target, f, -, -, -, rfl⟩
  · exact hd
  · exact hd
  · exact hd.addTransition _
  · exact (hd.mention target).addTransition _

end Draft

variable {name : String} {input : Input} {a : Automaton String}

theorem nodup_toAutomaton (h : toAutomaton name input = .ok a) :
    (a.states.map State.name).Nodup := by
  have hstart : Draft.Distinct ⟨[], none⟩ := List.nodup_nil
  obtain ⟨d, hd, s, -, rfl⟩ := exists_draft h Draft.Distinct hstart
    (fun hd _ => hd.mention _) fun hd hread => hd.readBody hread
  exact hd

/-- A never-claim with any other number of initial states is refused. -/
theorem startsOnce_toAutomaton (h : toAutomaton name input = .ok a) : a.StartsOnce := by
  unfold toAutomaton at h
  split at h
  · cases h
  · unfold Draft.toAutomaton at h
    split at h
    · cases h
    · next s hs =>
      cases h
      exact ⟨s, hs, rfl⟩
    · cases h

end NeverClaim

/-! ## Renaming atoms -/

namespace Formula

/-- Propositional formulas in the place of atoms leave a formula propositional. -/
theorem isPropositional_of_substitute {ε : Type} {image : α → Except ε (Formula β)}
    (himage : ∀ a g, image a = .ok g → g.isPropositional = true) {f : Formula α} {g : Formula β}
    (h : f.substitute image = .ok g) (hf : f.isPropositional = true) :
    g.isPropositional = true := by
  induction f generalizing g with
  | const b =>
    cases h
    rfl
  | atom a => exact himage a g h
  | unary op f ih =>
    unfold substitute at h
    split at h
    · next f' hf' =>
      cases h
      cases op with
      | neg =>
        have hprop := ih hf' hf
        exact hprop
      | eventually => cases hf
      | always => cases hf
      | next => cases hf
    · cases h
  | binary op f₁ f₂ ih₁ ih₂ =>
    unfold substitute at h
    split at h
    · cases h
    · next g₁ hg₁ =>
      split at h
      · cases h
      · next g₂ hg₂ =>
        cases h
        cases op with
        | and =>
          obtain ⟨hf₁, hf₂⟩ := isPropositional_and_iff.mp hf
          exact isPropositional_and_iff.mpr ⟨ih₁ hg₁ hf₁, ih₂ hg₂ hf₂⟩
        | or =>
          obtain ⟨hf₁, hf₂⟩ := isPropositional_or_iff.mp hf
          exact isPropositional_or_iff.mpr ⟨ih₁ hg₁ hf₁, ih₂ hg₂ hf₂⟩
        | strongUntil => cases hf
        | weakUntil => cases hf

/-- A name stands for an atom or a constant. -/
theorem isPropositional_ofName [Named β] (b : β) : (ofName b).isPropositional = true := by
  unfold ofName
  split
  · rfl
  · split <;> rfl

theorem isPropositional_of_renameAtoms [Named α] [Named β] {table : List (String × β)}
    {f : Formula α} {g : Formula β} (h : f.renameAtoms table = .ok g)
    (hf : f.isPropositional = true) : g.isPropositional = true := by
  refine isPropositional_of_substitute (fun a g hg => ?_) h hf
  split at hg
  · cases hg
    exact isPropositional_ofName _
  · cases hg

end Formula

namespace Automaton

section

variable {R : Formula α → Formula β → Prop} {a : Automaton α} {b : Automaton β}

/-- Automata that differ in their guards have the same states. -/
theorem Rel.map_outline (h : Rel R a b) :
    b.states.map State.outline = a.states.map State.outline := by
  have hstates : List.Forall₂ (· = ·) (b.states.map State.outline)
      (a.states.map State.outline) := by
    rw [List.forall₂_map_left_iff, List.forall₂_map_right_iff]
    refine h.states.flip.imp fun s' s hs => ?_
    rw [State.outline, State.outline, hs.name, hs.id, hs.isInitial, hs.isAccepting,
      hs.transitions.length_eq]
  rwa [List.forall₂_eq_eq_eq] at hstates

theorem Rel.map_name (h : Rel R a b) : b.states.map State.name = a.states.map State.name := by
  have hnames := congrArg (List.map Prod.fst) h.map_outline
  rwa [List.map_map, List.map_map] at hnames

theorem StartsOnce.rel (ha : a.StartsOnce) (h : Rel R a b) : b.StartsOnce := by
  obtain ⟨s, hs, hid⟩ := ha
  have hfilter : List.Forall₂ (State.Rel R) (a.states.filter State.isInitial)
      (b.states.filter State.isInitial) :=
    List.rel_filter (fun s s' hs => Bool.eq_iff_iff.mp hs.isInitial.symm) h.states
  rw [hs] at hfilter
  obtain ⟨s', rest, hs', hrest, hstates⟩ := List.forall₂_cons_left_iff.mp hfilter
  rw [List.forall₂_nil_left_iff.mp hrest] at hstates
  exact ⟨s', hstates, by rw [hs'.id, hid, h.initial]⟩

end

end Automaton

/-- The automaton of a never-claim is well-formed: numbers and names tell its states apart, exactly
one state is initial, every transition leads between states, and every guard is propositional and
has clauses.  It stays so when its atoms are renamed, which changes neither states nor the numbers
of their transitions.

Nothing is asked but that the text was read, and of the names that the atoms get only that all of
them get one. -/
theorem wellFormed_toAutomaton {name : String} {input : Input} {a : Automaton String}
    (h : NeverClaim.toAutomaton name input = .ok a) :
    a.WellFormed ∧ ∀ {β : Type} [Named β] (table : List (String × β)) (b : Automaton β),
      a.renameAtoms table = .ok b →
        b.WellFormed ∧ b.initial = a.initial ∧
          b.states.map State.outline = a.states.map State.outline := by
  have hnumbered := NeverClaim.numbered_toAutomaton h
  have hnodup := NeverClaim.nodup_toAutomaton h
  have hstart := NeverClaim.startsOnce_toAutomaton h
  have hguards : ∀ t ∈ a.transitions, t.guard.isPropositional = true := fun t ht =>
    (NeverClaim.isPlain_toAutomaton h t ht).isPropositional
  refine ⟨Automaton.wellFormed_of_numbered hnumbered hnodup hstart hguards,
    fun {β} _ table b hb => ?_⟩
  have hrel := Automaton.rel_of_renameAtoms hb
  have hrenamed : ∀ t ∈ b.transitions, t.guard.isPropositional = true := by
    intro t ht
    obtain ⟨u, hu, hut⟩ := exists_mem_of_forall₂ hrel.transitions ht
    exact Formula.isPropositional_of_renameAtoms hut.guard (hguards u hu)
  exact ⟨Automaton.wellFormed_of_numbered (hnumbered.rel hrel) (hrel.map_name.symm ▸ hnodup)
    (hstart.rel hrel) hrenamed, hrel.initial, hrel.map_outline⟩

/-- States that are named by a transition first, and one that is named by nothing else. -/
theorem wellFormed_patrol :
    let input := Input.ofText
      "T0_init :\nif\n:: (c0) -> goto T2\n:: c1 -> goto T0_init\nfi;\naccept_S1 : skip\n"
    let table := [("c0", "lit"), ("c1", "true")]
    ∃ a b : Automaton String, NeverClaim.toAutomaton "patrol" input = .ok a ∧
      a.renameAtoms table = .ok b ∧ a.WellFormed ∧ b.WellFormed ∧
        b.states.map State.outline =
          [("T0_init", 0, true, false, 2), ("T2", 1, false, false, 0),
            ("accept_S1", 2, false, true, 1)] := by
  intro input table
  have hread : ((NeverClaim.toAutomaton "patrol" input).toOption.any fun a =>
      (a.renameAtoms table).isOk && a.states.map State.outline ==
        [("T0_init", 0, true, false, 2), ("T2", 1, false, false, 0),
          ("accept_S1", 2, false, true, 1)]) = true := by decide +kernel
  obtain ⟨a, ha, hrest⟩ := exists_of_toOption_any hread
  obtain ⟨hok, houtline⟩ := Bool.and_eq_true_iff.mp hrest
  obtain ⟨b, hb⟩ := exists_of_isOk hok
  obtain ⟨hwell, hrenamed⟩ := wellFormed_toAutomaton ha
  obtain ⟨hwell', -, hsame⟩ := hrenamed table b hb
  exact ⟨a, b, ha, hb, hwell, hwell', hsame.trans (eq_of_beq houtline)⟩

end PlanConstraints

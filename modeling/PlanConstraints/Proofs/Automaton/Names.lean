import PlanConstraints.Proofs.Automaton.Numbering
import PlanConstraints.Proofs.Property.Legible

set_option autoImplicit false

/-!
# The names in automata of properties

The names of states are words of a never-claim, and the atoms of guards are those of the property,
whatever the translator answers: so the text of every transition fits on a line
(`legible_automatonOf`).
-/

namespace PlanConstraints

/-- The names in the automaton have no line feeds; its own name fills a line. -/
structure Automaton.Legible (a : Automaton Symbol) : Prop where
  name : IsLine a.name
  states : ∀ s ∈ a.states, '\n' ∉ s.name.toList
  atoms : ∀ tr ∈ a.transitions, ∀ x ∈ tr.guard.atoms, IsLine x.name

/-! ## Reading a never-claim -/

namespace NeverClaim

/-- The text is made of characters that names of states may have. -/
def HasStateChars (name : String) : Prop := ∀ c ∈ name.toList, isStateChar c = true

theorem hasStateChars_of_header? {p body : Piece} {name : String}
    (h : header? p = some (name, body)) : HasStateChars name := by
  unfold header? at h
  simp only at h
  split at h
  · cases h
    intro c hc
    rw [String.toList_ofList] at hc
    exact List.mem_takeWhile_imp hc
  · cases h

theorem hasStateChars_of_target? {cs : List Char} {name : String} (h : target? cs = some name) :
    HasStateChars name := by
  unfold target? at h
  split at h
  · split at h
    · cases h
    · simp only at h
      split at h
      · cases h
        intro c hc
        rw [String.toList_ofList] at hc
        exact List.mem_takeWhile_imp hc
      · cases h
  · cases h

theorem hasStateChars_of_transition? {p guard : Piece} {target : String}
    (h : transition? p = some (guard, target)) : HasStateChars target := by
  unfold transition? at h
  simp only at h
  split at h
  · cases h
  · split at h
    · cases h
    · next htarget =>
      cases h
      exact hasStateChars_of_target? htarget

namespace Draft

/-- The states have names of states. -/
def NamesStates (d : Draft) : Prop := ∀ s ∈ d.states, HasStateChars s.name

variable {d d' : Draft}

theorem NamesStates.mention (hd : d.NamesStates) {name : String} (hname : HasStateChars name) :
    (d.mention name).1.NamesStates := by
  unfold Draft.mention
  split
  · exact hd
  · exact List.forall_mem_append.mpr ⟨hd, List.forall_mem_singleton.mpr hname⟩

theorem NamesStates.addTransition (hd : d.NamesStates) (tr : Transition String) :
    (d.addTransition tr).NamesStates := by
  refine List.forall_mem_map.mpr fun s hs => ?_
  split
  · exact hd s hs
  · exact hd s hs

theorem NamesStates.readBody (hd : d.NamesStates) {line : Line} {body : Piece}
    (h : d.readBody line body = .ok d') : d'.NamesStates := by
  rcases readBody_eq_ok h with
    rfl | rfl | ⟨i, -, rfl⟩ | ⟨i, guard, target, f, -, htarget, -, rfl⟩
  · exact hd
  · exact hd
  · exact hd.addTransition _
  · exact (hd.mention (hasStateChars_of_transition? htarget)).addTransition _

end Draft

/-- The automaton has the given name, and its states have names of states. -/
theorem names_toAutomaton {name : String} {input : Input} {a : Automaton String}
    (h : toAutomaton name input = .ok a) :
    a.name = name ∧ ∀ s ∈ a.states, HasStateChars s.name := by
  obtain ⟨d, hd, s, -, rfl⟩ := exists_draft h Draft.NamesStates (List.forall_mem_nil _)
    (fun hd hheader => hd.mention (hasStateChars_of_header? hheader))
    fun hd hread => hd.readBody hread
  exact ⟨rfl, hd⟩

theorem HasStateChars.notMem {name : String} (h : HasStateChars name) : '\n' ∉ name.toList := by
  intro hc
  have hchar := h _ hc
  revert hchar
  decide

end NeverClaim

/-! ## The automaton of a property -/

/-- The atoms in the table are those of the formula, apart from the name of a constant. -/
theorem mem_of_mem_atomTable {atoms : List Symbol} {name : String} {x : Symbol}
    (h : (name, x) ∈ atomTable atoms) (hx : x.name ≠ "true") : x ∈ atoms := by
  rcases List.mem_append.mp h with h | h
  · obtain ⟨⟨a, i⟩, hmem, heq⟩ := List.mem_map.mp h
    cases heq
    rw [(List.mem_zipIdx' hmem).2]
    exact List.getElem_mem _
  · have hconst : ∀ entry ∈ [("true", Symbol.ofName "true"), ("1", .ofName "true")],
        entry.2.name = "true" := by decide
    exact absurd (hconst _ h) hx

/-- The atoms of guards are those of the property. -/
theorem atoms_automatonOf {translator : Translator} {p : Property} {a : Automaton Symbol}
    (h : automatonOf translator p = .ok a) :
    ∀ tr ∈ a.transitions, ∀ x ∈ tr.guard.atoms, x ∈ p.formula.atoms := by
  obtain ⟨input, claim, -, hrel⟩ := exists_of_automatonOf h
  intro tr htr x hx
  obtain ⟨tr', -, htransition⟩ := exists_mem_of_forall₂ hrel.transitions htr
  obtain ⟨htrue, name, hmem⟩ := Formula.mem_atoms_of_renameAtoms htransition.guard x hx
  exact mem_of_mem_distinctBy (mem_of_mem_atomTable hmem htrue)

/-- The automaton of a property has names that fit on lines. -/
theorem legible_automatonOf {translator : Translator} {p : Property} (hp : p.Legible)
    {a : Automaton Symbol} (h : automatonOf translator p = .ok a) : a.Legible := by
  obtain ⟨input, claim, hclaim, hrel⟩ := exists_of_automatonOf h
  obtain ⟨hname, hstates⟩ := NeverClaim.names_toAutomaton hclaim
  refine ⟨?_, fun s hs => ?_, fun tr htr x hx => hp.atoms x (atoms_automatonOf h tr htr x hx)⟩
  · rw [hrel.name, hname]
    exact hp.name
  · obtain ⟨s', hs', hstate⟩ := exists_mem_of_forall₂ hrel.states hs
    rw [hstate.name]
    exact (hstates s' hs').notMem

/-! ## Texts of transitions -/

theorem notMem_of_mem_words {f : Formula Symbol} (h : ∀ x ∈ f.atoms, IsLine x.name) :
    ∀ w ∈ f.words, '\n' ∉ w.toList := by
  induction f with
  | const value => cases value <;> decide
  | atom a => exact List.forall_mem_singleton.mpr (h a (List.mem_singleton_self a)).2
  | unary op f ih =>
    refine List.forall_mem_cons.mpr ⟨?_, ih h⟩
    cases op <;> decide
  | binary op f g ihf ihg =>
    obtain ⟨hf, hg⟩ := List.forall_mem_append.mp h
    refine List.forall_mem_cons.mpr ⟨?_, List.forall_mem_append.mpr ⟨ihf hf, ihg hg⟩⟩
    cases op <;> decide

theorem notMem_polish {f : Formula Symbol} (h : ∀ x ∈ f.atoms, IsLine x.name) :
    '\n' ∉ f.polish.toList := by
  intro hbreak
  rcases Text.mem_toList_intercalate hbreak with hspace | ⟨w, hw, hbreak⟩
  · revert hspace
    decide
  · exact notMem_of_mem_words h w hw hbreak

namespace Automaton.Legible

variable {a : Automaton Symbol}

theorem notMem_stateName (ha : a.Legible) (id : Nat) : '\n' ∉ (a.stateName id).toList := by
  unfold Automaton.stateName
  split
  · next s hs => exact ha.states s (List.mem_of_getElem? hs)
  · simp

/-- The text of a transition stands in parentheses. -/
theorem isLine_transitionName (ha : a.Legible) {tr : Transition Symbol}
    (htr : tr ∈ a.transitions) : IsLine (a.transitionName tr) := by
  have hname : a.transitionName tr = "(" ++ (a.stateName tr.source ++ " (" ++ tr.guard.polish ++
      ") -> " ++ a.stateName tr.target) ++ ")" := by
    simp [Automaton.transitionName, String.append_assoc]
  rw [hname]
  refine IsLine.append (by decide) (by decide) ?_
  have hsource := ha.notMem_stateName tr.source
  have htarget := ha.notMem_stateName tr.target
  have hguard := notMem_polish (ha.atoms tr htr)
  simp [hsource, htarget, hguard]

end Automaton.Legible

end PlanConstraints

import PlanConstraints.Proofs.Formula.Decoding
import PlanConstraints.Proofs.Formula.Truth

set_option autoImplicit false

/-!
# Where atoms come from

The disjunctive normal form of a formula repeats atoms, but has no others than the formula, and the
literals of its clauses are on them.  The atoms of a formula that was read are among its words, and
those of a formula whose atoms were renamed are in the table.
-/

namespace PlanConstraints

namespace Formula

variable {α : Type}

/-! ## Normal form -/

theorem atoms_negate (f : Formula α) : f.negate.atoms = f.atoms := by
  induction f with
  | const b => rfl
  | atom a => rfl
  | unary op f ih => cases op <;> rfl
  | binary op f g ihf ihg =>
    cases op with
    | and => rw [negate, atoms, atoms, ihf, ihg]
    | or => rw [negate, atoms, atoms, ihf, ihg]
    | strongUntil => rfl
    | weakUntil => rfl

theorem atoms_nnf (f : Formula α) : f.nnf.atoms = f.atoms := by
  induction f with
  | const b => rfl
  | atom a => rfl
  | unary op f ih =>
    cases op with
    | neg => rw [nnf, atoms_negate, ih, atoms]
    | eventually => rfl
    | always => rfl
    | next => rfl
  | binary op f g ihf ihg =>
    cases op with
    | and => rw [nnf, atoms, atoms, ihf, ihg]
    | or => rw [nnf, atoms, atoms, ihf, ihg]
    | strongUntil => rfl
    | weakUntil => rfl

theorem atoms_distributeAnd_subset (f g : Formula α) :
    (distributeAnd f g).atoms ⊆ f.atoms ++ g.atoms := by
  intro x hx
  unfold distributeAnd at hx
  split at hx
  · simp only [atoms, List.mem_append] at hx ⊢
    rcases hx with (hf | ha) | hf | hb
    · exact .inl hf
    · exact .inr (.inl ha)
    · exact .inl hf
    · exact .inr (.inr hb)
  · split at hx
    · simp only [atoms, List.mem_append] at hx ⊢
      rcases hx with (ha | hg) | hb | hg
      · exact .inl (.inl ha)
      · exact .inr hg
      · exact .inl (.inr hb)
      · exact .inr hg
    · exact hx

theorem atoms_distribute_subset (f : Formula α) : f.distribute.atoms ⊆ f.atoms := by
  induction f with
  | const b => exact List.Subset.refl _
  | atom a => exact List.Subset.refl _
  | unary op f ih => exact List.Subset.refl _
  | binary op f g ihf ihg =>
    have hboth : f.distribute.atoms ++ g.distribute.atoms ⊆ f.atoms ++ g.atoms :=
      List.append_subset.mpr ⟨List.Subset.trans ihf (List.subset_append_left _ _),
        List.Subset.trans ihg (List.subset_append_right _ _)⟩
    cases op with
    | and => exact List.Subset.trans (atoms_distributeAnd_subset _ _) hboth
    | or => exact hboth
    | strongUntil => exact List.Subset.refl _
    | weakUntil => exact List.Subset.refl _

theorem atoms_distributeAll_subset (f : Formula α) : f.distributeAll.atoms ⊆ f.atoms := by
  fun_induction distributeAll f with
  | case1 f _ => exact List.Subset.refl _
  | case2 f _ ih => exact List.Subset.trans ih (atoms_distribute_subset f)

/-- The disjunctive normal form has no further atoms. -/
theorem atoms_toDnf_subset (f : Formula α) : f.toDnf.atoms ⊆ f.atoms := by
  rw [toDnf, ← atoms_nnf f]
  exact atoms_distributeAll_subset f.nnf

/-! ## Clauses -/

section

variable [Named α]

theorem atom_mem_of_literals {f : Formula α} {ls : Clause α} (h : f.literals = .ok (some ls)) :
    ∀ l ∈ ls, l.atom ∈ f.atoms := by
  induction f generalizing ls with
  | const b =>
    cases b with
    | true => cases h; simp
    | false => cases h
  | atom a => cases h; simp [atoms]
  | unary op f ih =>
    cases op with
    | neg =>
      cases f with
      | const b =>
        cases b with
        | true => cases h
        | false => cases h; simp
      | atom a => cases h; simp [atoms]
      | unary _ _ => cases h
      | binary _ _ _ => cases h
    | eventually => cases h
    | always => cases h
    | next => cases h
  | binary op f g ihf ihg =>
    cases op with
    | and =>
      rw [literals] at h
      cases hf : f.literals with
      | error e => rw [hf] at h; cases h
      | ok left =>
        cases hg : g.literals with
        | error e => rw [hf, hg] at h; cases h
        | ok right =>
          rw [hf, hg] at h
          cases left with
          | none => cases h
          | some left =>
            cases right with
            | none => cases h
            | some right =>
              cases h
              intro l hl
              rcases List.mem_append.mp hl with hl | hl
              · exact List.mem_append_left _ (ihf hf l hl)
              · exact List.mem_append_right _ (ihg hg l hl)
    | or => cases h
    | strongUntil => cases h
    | weakUntil => cases h

theorem atom_mem_of_clause {f : Formula α} {cs : List (Clause α)} (h : f.clause = .ok cs) :
    ∀ c ∈ cs, ∀ l ∈ c, l.atom ∈ f.atoms := by
  rw [clause] at h
  cases hls : f.literals with
  | error e => rw [hls] at h; cases h
  | ok ls =>
    rw [hls] at h
    cases ls with
    | none => cases h; simp
    | some ls =>
      cases h
      intro c hc l hl
      cases List.mem_singleton.mp hc
      exact atom_mem_of_literals hls l (mem_of_mem_distinctBy hl)

/-- The literals of clauses are on atoms of the formula. -/
theorem atom_mem_of_clauses {f : Formula α} {cs : List (Clause α)} (h : f.clauses = .ok cs) :
    ∀ c ∈ cs, ∀ l ∈ c, l.atom ∈ f.atoms := by
  fun_induction clauses f generalizing cs with
  | case1 => cases h
  | case2 => cases h
  | case3 f g left hleft right hright ihf ihg =>
    cases h
    intro c hc l hl
    rcases List.mem_append.mp hc with hc | hc
    · exact List.mem_append_left _ (ihf hleft c hc l hl)
    · exact List.mem_append_right _ (ihg hright c hc l hl)
  | case4 f _ => exact atom_mem_of_clause h

end

/-! ## Other atoms -/

/-- The atoms of the result are those of the formulas that were put in. -/
theorem mem_atoms_of_substitute {β ε : Type} {image : α → Except ε (Formula β)} {f : Formula α}
    {g : Formula β} (h : f.substitute image = .ok g) :
    ∀ b ∈ g.atoms, ∃ a ∈ f.atoms, ∃ g', image a = .ok g' ∧ b ∈ g'.atoms := by
  induction f generalizing g with
  | const value =>
    cases h
    simp [atoms]
  | atom a => exact fun b hb => ⟨a, List.mem_singleton_self a, g, h, hb⟩
  | unary op f ih =>
    unfold substitute at h
    split at h
    · next g' hg' =>
      cases h
      have hrest := ih hg'
      exact hrest
    · cases h
  | binary op f f' ihf ihf' =>
    unfold substitute at h
    split at h
    · cases h
    · next g hg =>
      split at h
      · cases h
      · next g' hg' =>
        cases h
        intro b hb
        rcases List.mem_append.mp hb with hb | hb
        · obtain ⟨a, ha, hrest⟩ := ihf hg b hb
          exact ⟨a, List.mem_append_left _ ha, hrest⟩
        · obtain ⟨a, ha, hrest⟩ := ihf' hg' b hb
          exact ⟨a, List.mem_append_right _ ha, hrest⟩

/-- Every atom of a formula in which formulas could be put in has one. -/
theorem exists_of_substitute {β ε : Type} {image : α → Except ε (Formula β)} {f : Formula α}
    {g : Formula β} (h : f.substitute image = .ok g) : ∀ a ∈ f.atoms, ∃ g', image a = .ok g' := by
  induction f generalizing g with
  | const value => exact List.forall_mem_nil _
  | atom a => exact List.forall_mem_singleton.mpr ⟨g, h⟩
  | unary op f ih =>
    unfold substitute at h
    split at h
    · next hf => exact ih hf
    · cases h
  | binary op f f' ihf ihf' =>
    unfold substitute at h
    split at h
    · cases h
    · next hf =>
      split at h
      · cases h
      · next hf' => exact List.forall_mem_append.mpr ⟨ihf hf, ihf' hf'⟩

/-- Putting in atoms replaces atoms by them. -/
theorem substitute_eq_map {β ε : Type} {image : α → Except ε (Formula β)} {rename : α → β}
    {f : Formula α} (h : ∀ a ∈ f.atoms, image a = .ok (.atom (rename a))) :
    f.substitute image = .ok (f.map rename) := by
  induction f with
  | const value => rfl
  | atom a => exact h a (List.mem_singleton_self a)
  | unary op f ih => simp only [substitute, ih h, map]
  | binary op f g ihf ihg =>
    obtain ⟨hf, hg⟩ := List.forall_mem_append.mp h
    simp only [substitute, ihf hf, ihg hg, map]

theorem map_map {β γ : Type} (rename : α → β) (rename' : β → γ) (f : Formula α) :
    (f.map rename).map rename' = f.map fun a => rename' (rename a) := by
  induction f with
  | const value => rfl
  | atom a => rfl
  | unary op f ih => simp only [map, ih]
  | binary op f g ihf ihg => simp only [map, ihf, ihg]

theorem map_congr {β : Type} {rename rename' : α → β} {f : Formula α}
    (h : ∀ a ∈ f.atoms, rename a = rename' a) : f.map rename = f.map rename' := by
  induction f with
  | const value => rfl
  | atom a => rw [map, map, h a (List.mem_singleton_self a)]
  | unary op f ih => rw [map, map, ih h]
  | binary op f g ihf ihg =>
    obtain ⟨hf, hg⟩ := List.forall_mem_append.mp h
    rw [map, map, ihf hf, ihg hg]

/-- A name that is not one of a constant stands for an atom. -/
theorem ofName_eq_atom {β : Type} [Named β] {b : β} (h : nameOf b ∉ ["true", "false"]) :
    ofName b = .atom b := by
  simp only [List.mem_cons, List.not_mem_nil, or_false, not_or] at h
  rw [ofName, if_neg h.1, if_neg h.2]

theorem mem_atoms_ofName_iff {β : Type} [Named β] {a b : β} :
    b ∈ (ofName a).atoms ↔ b = a ∧ nameOf a ≠ "true" ∧ nameOf a ≠ "false" := by
  unfold ofName
  split
  · next htrue => simp [atoms, htrue]
  · next htrue =>
    split
    · next hfalse => simp [atoms, hfalse]
    · next hfalse => simp [atoms, htrue, hfalse]

/-- Renaming gives the formula atoms of the table that have no names of constants. -/
theorem mem_atoms_of_renameAtoms {β : Type} [Named α] [Named β] {table : List (String × β)}
    {f : Formula α} {g : Formula β} (h : f.renameAtoms table = .ok g) :
    ∀ b ∈ g.atoms, nameOf b ≠ "true" ∧ ∃ name, (name, b) ∈ table := by
  intro b hb
  obtain ⟨a, -, g', hg', hb⟩ := mem_atoms_of_substitute h b hb
  split at hg'
  · next entry hentry =>
    cases hg'
    obtain ⟨rfl, htrue, -⟩ := mem_atoms_ofName_iff.mp hb
    exact ⟨htrue, entry.1, List.mem_of_find?_eq_some hentry⟩
  · cases hg'

/-- Only atoms in the table are renamed. -/
theorem exists_of_renameAtoms {β : Type} [Named α] [Named β] {table : List (String × β)}
    {f : Formula α} {g : Formula β} (h : f.renameAtoms table = .ok g) :
    ∀ a ∈ f.atoms, ∃ b, (nameOf a, b) ∈ table := by
  intro a ha
  obtain ⟨g', hg'⟩ := exists_of_substitute h a ha
  split at hg'
  · next entry hentry =>
    have hname : entry.1 = nameOf a := by simpa using List.find?_some hentry
    exact ⟨entry.2, hname ▸ List.mem_of_find?_eq_some hentry⟩
  · cases hg'

/-- Atoms that the table gives other names than those of constants are replaced by these. -/
theorem renameAtoms_eq_map {β : Type} [Named α] [Named β] {table : List (String × β)}
    (hkeys : (table.map Prod.fst).Nodup) {rename : α → β} {f : Formula α}
    (h : ∀ a ∈ f.atoms, (nameOf a, rename a) ∈ table ∧ nameOf (rename a) ∉ ["true", "false"]) :
    f.renameAtoms table = .ok (f.map rename) := by
  refine substitute_eq_map fun a ha => ?_
  obtain ⟨hmem, hname⟩ := h a ha
  simp only [find?_of_nodup Prod.fst hkeys hmem, ofName_eq_atom hname]

/-! ## Reading -/

section

variable [Named α]

/-- The words that were read spell the formula, and those that stand for atoms are its atoms. -/
theorem words_of_ofWords {words : List α} {f : Formula α} (h : ofWords words = .ok f) :
    words.map (fun w => spelledOut (nameOf w)) = f.words ∧ atomWords words = f.atoms := by
  unfold ofWords at h
  split at h
  · cases h
  · next reading hreading =>
    split at h
    · next hnil =>
      cases h
      obtain ⟨front, hfront, hwords, hatoms, -⟩ := exists_of_read hreading
      rw [hnil, List.append_nil] at hfront
      rw [hfront]
      exact ⟨hwords, hatoms⟩
    · cases h

/-- The atoms of a formula are among the words that stand for atoms. -/
theorem atoms_subset_atomWords {words : List α} {f : Formula α} (h : ofWords words = .ok f) :
    f.atoms ⊆ atomWords words := by
  rw [(words_of_ofWords h).2]
  exact List.Subset.refl _

/-- The atoms of a formula are among its words. -/
theorem atoms_subset_of_ofWords {words : List α} {f : Formula α} (h : ofWords words = .ok f) :
    f.atoms ⊆ words :=
  List.Subset.trans (atoms_subset_atomWords h) (atomWords_subset words)

/-- No atom of a formula is a word that means something else. -/
theorem notMem_reservedWords {words : List α} {f : Formula α} (h : ofWords words = .ok f) {a : α}
    (ha : a ∈ f.atoms) : nameOf a ∉ reservedWords :=
  ofWord_eq_atom_iff.mp (ofWord_of_mem_atomWords (atoms_subset_atomWords h ha))

/-- Words that read as a propositional formula read as a formula. -/
theorem propositionalOfWords_eq_ok_iff {words : List α} {f : Formula α} :
    propositionalOfWords words = .ok f ↔ ofWords words = .ok f ∧ f.isPropositional = true := by
  unfold propositionalOfWords
  cases ofWords words with
  | error e => simp
  | ok g =>
    simp only [Except.ok.injEq]
    constructor
    · intro h
      split at h
      · cases h
      · next hnone =>
        cases h
        exact ⟨rfl, by simp [isPropositional, hnone]⟩
    · rintro ⟨rfl, hprop⟩
      rw [isPropositional, Option.isNone_iff_eq_none] at hprop
      rw [hprop]

theorem atoms_subset_of_propositionalOfWords {words : List α} {f : Formula α}
    (h : propositionalOfWords words = .ok f) : f.atoms ⊆ words :=
  atoms_subset_of_ofWords (propositionalOfWords_eq_ok_iff.mp h).1

end

end Formula

end PlanConstraints

import Mathlib.Data.List.Nodup
import PlanConstraints.Proofs.Automaton.Names
import PlanConstraints.Proofs.Formula.ReadGuards
import PlanConstraints.Proofs.Text.Numbers

set_option autoImplicit false

/-!
# Generic names

A translator sees generic names in the place of the atoms of a formula, and these get their atoms
back in the guards that it answers with.  Different atoms have different generic names, and all of
them are replaced at once, so it does no harm if a formula has atoms that look like generic names.
-/

namespace PlanConstraints

/-! ## Names of atoms -/

theorem genericName_injective : Function.Injective genericName := by
  intro i j h
  have hdigits : (toString i).toList = (toString j).toList := by
    have hchars := congrArg String.toList h
    rw [genericName, genericName, String.toList_append, String.toList_append] at hchars
    exact List.append_cancel_left hchars
  exact Text.toString_injective (String.toList_inj.mp hdigits)

/-- The words for constants are no generic names. -/
theorem genericName_notMem (i : Nat) : genericName i ∉ Guard.constantWords := by
  have hfirst : ∀ name ∈ Guard.constantWords, name.toList.head? ≠ some 'c' := by decide
  intro hmem
  refine hfirst _ hmem ?_
  rw [genericName, String.toList_append]
  rfl

/-- The number of an atom among others, which is the place of its name. -/
def numberOf (atoms : List Symbol) (a : Symbol) : Nat := atoms.findIdx fun b => b.name = a.name

/-- The atom for which a name stands in the answer of a translator. -/
def atomOf (atoms : List Symbol) (name : String) : Symbol :=
  match (atomTable atoms).find? fun entry => entry.1 = name with
  | some entry => entry.2
  | none => .ofName name

/-- The formula with generic names in the place of its atoms. -/
def Formula.generic (f : Formula Symbol) : Formula String :=
  f.map fun a => genericName (numberOf f.constants a)

section

variable {atoms : List Symbol} {a : Symbol} {i : Nat}

theorem nodup_keys_genericTable (h : (atoms.map Symbol.name).Nodup) :
    ((genericTable atoms).map Prod.fst).Nodup := by
  have hkeys : (genericTable atoms).map Prod.fst = atoms.map Symbol.name := by
    calc
      (genericTable atoms).map Prod.fst = (atoms.zipIdx.map Prod.fst).map Symbol.name := by
        rw [genericTable, List.map_map, List.map_map]
        rfl
      _ = atoms.map Symbol.name := by rw [List.zipIdx_map_fst]
  rw [hkeys]
  exact h

theorem nodup_keys_atomTable (atoms : List Symbol) : ((atomTable atoms).map Prod.fst).Nodup := by
  have hkeys : (atomTable atoms).map Prod.fst =
      (List.range' 0 atoms.length).map genericName ++ ["true", "1"] := by
    rw [atomTable, List.map_append, List.map_map, ← List.zipIdx_map_snd 0 atoms, List.map_map]
    rfl
  rw [hkeys]
  refine List.nodup_append.mpr
    ⟨List.Nodup.map genericName_injective List.nodup_range', by decide, ?_⟩
  rintro name hname constant hconstant rfl
  obtain ⟨i, -, rfl⟩ := List.mem_map.mp hname
  have hsub : ["true", "1"] ⊆ Guard.constantWords := by decide
  exact genericName_notMem i (hsub hconstant)

theorem mem_genericTable (h : atoms[i]? = some a) :
    (a.name, genericName i) ∈ genericTable atoms :=
  List.mem_map.mpr ⟨(a, i), List.mem_zipIdx_iff_getElem?.mpr h, rfl⟩

theorem mem_atomTable (h : atoms[i]? = some a) : (genericName i, a) ∈ atomTable atoms :=
  List.mem_append_left _ (List.mem_map.mpr ⟨(a, i), List.mem_zipIdx_iff_getElem?.mpr h, rfl⟩)

/-- The names in the table are generic ones and words for a constant. -/
theorem exists_of_mem_atomTable {name : String} (h : (name, a) ∈ atomTable atoms) :
    (∃ i < atoms.length, name = genericName i) ∨ name ∈ Guard.constantWords := by
  rcases List.mem_append.mp h with h | h
  · obtain ⟨⟨b, i⟩, hmem, heq⟩ := List.mem_map.mp h
    cases heq
    exact .inl ⟨i, (List.mem_zipIdx' hmem).1, rfl⟩
  · have hwords : ∀ entry ∈ [("true", Symbol.ofName "true"), ("1", .ofName "true")],
        entry.1 ∈ Guard.constantWords := by decide
    exact .inr (hwords _ h)

theorem atomOf_genericName (h : atoms[i]? = some a) : atomOf atoms (genericName i) = a := by
  have hfind := find?_of_nodup Prod.fst (nodup_keys_atomTable atoms) (mem_atomTable h)
  rw [atomOf, hfind]

end

/-! ## Formulas -/

namespace Formula

variable {f : Formula Symbol}

/-- The atom of a number has the name of the atom that has the number. -/
theorem exists_constant {a : Symbol} (h : a ∈ f.atoms) :
    ∃ b, f.constants[numberOf f.constants a]? = some b ∧ b.name = a.name := by
  obtain ⟨b, hb, hname⟩ := exists_mem_distinctBy nameOf h
  have hlt : numberOf f.constants a < f.constants.length :=
    List.findIdx_lt_length.mpr ⟨b, hb, decide_eq_true hname⟩
  exact ⟨_, List.getElem?_eq_getElem hlt, of_decide_eq_true (List.findIdx_getElem (w := hlt))⟩

/-- The table of generic names gives every atom its own. -/
theorem renameAtoms_genericTable (f : Formula Symbol) :
    f.renameAtoms (genericTable f.constants) = .ok f.generic := by
  have hkeys := nodup_keys_genericTable (nodup_map_distinctBy nameOf f.atoms)
  refine renameAtoms_eq_map hkeys fun a ha => ⟨?_, fun hconstant => ?_⟩
  · obtain ⟨b, hb, hname⟩ := exists_constant ha
    have hmem := mem_genericTable hb
    rwa [hname] at hmem
  · have hsub : ["true", "false"] ⊆ Guard.constantWords := by decide
    exact genericName_notMem _ (hsub hconstant)

/-- Generic names get their atoms back. -/
theorem renameAtoms_atomTable {atoms : List Symbol}
    (hatoms : ∀ a ∈ atoms, a.name ∉ reservedWords) {g : Formula String}
    (hg : ∀ x ∈ g.atoms, ∃ i < atoms.length, x = genericName i) :
    g.renameAtoms (atomTable atoms) = .ok (g.map (atomOf atoms)) := by
  refine renameAtoms_eq_map (nodup_keys_atomTable atoms) fun x hx => ?_
  obtain ⟨i, hi, rfl⟩ := hg x hx
  have hget := List.getElem?_eq_getElem hi
  rw [atomOf_genericName hget]
  refine ⟨mem_atomTable hget, fun hconstant => ?_⟩
  have hsub : ["true", "false"] ⊆ reservedWords := by decide
  exact hatoms _ (List.getElem_mem hi) (hsub hconstant)

/-- With its atoms back, a formula has the names that it had. -/
theorem map_atomOf_generic (f : Formula Symbol) :
    (f.generic.map (atomOf f.constants)).map nameOf = f.map nameOf := by
  rw [generic, map_map, map_map]
  refine map_congr fun a ha => ?_
  obtain ⟨b, hb, hname⟩ := exists_constant ha
  rw [atomOf_genericName hb]
  exact hname

theorem exists_of_mem_atoms_generic {x : String} (h : x ∈ f.generic.atoms) :
    ∃ i < f.constants.length, x = genericName i := by
  rw [generic, atoms_map] at h
  obtain ⟨a, ha, rfl⟩ := List.mem_map.mp h
  obtain ⟨b, hb, -⟩ := exists_constant ha
  exact ⟨_, (List.getElem?_eq_some_iff.mp hb).1, rfl⟩

end Formula

/-! ## Guards of never-claims -/

namespace NeverClaim

namespace Draft

/-- The guards that were read are plain. -/
def PlainGuards (d : Draft) : Prop := ∀ s ∈ d.states, ∀ t ∈ s.transitions, Guard.IsPlain t.guard

variable {d d' : Draft}

theorem PlainGuards.mention (hd : d.PlainGuards) (name : String) :
    (d.mention name).1.PlainGuards := by
  unfold Draft.mention
  split
  · exact hd
  · exact List.forall_mem_append.mpr
      ⟨hd, List.forall_mem_singleton.mpr (List.forall_mem_nil _)⟩

theorem PlainGuards.addTransition (hd : d.PlainGuards) {t : Transition String}
    (ht : Guard.IsPlain t.guard) : (d.addTransition t).PlainGuards := by
  refine List.forall_mem_map.mpr fun s hs => ?_
  split
  · exact List.forall_mem_append.mpr ⟨hd s hs, List.forall_mem_singleton.mpr ht⟩
  · exact hd s hs

theorem PlainGuards.readBody (hd : d.PlainGuards) {line : Line} {body : Piece}
    (h : d.readBody line body = .ok d') : d'.PlainGuards := by
  rcases readBody_eq_ok h with
    rfl | rfl | ⟨i, -, rfl⟩ | ⟨i, guard, target, f, -, -, hguard, rfl⟩
  · exact hd
  · exact hd
  · exact hd.addTransition (Guard.isPlain_const true)
  · exact (hd.mention target).addTransition (Guard.isPlain_ofText hguard)

end Draft

/-- The guards of a never-claim are plain. -/
theorem isPlain_toAutomaton {name : String} {input : Input} {a : Automaton String}
    (h : toAutomaton name input = .ok a) : ∀ t ∈ a.transitions, Guard.IsPlain t.guard := by
  obtain ⟨d, hd, s, -, rfl⟩ := exists_draft h Draft.PlainGuards (List.forall_mem_nil _)
    (fun hd _ => hd.mention _) fun hd hread => hd.readBody hread
  intro t ht
  obtain ⟨s', hs', ht⟩ := List.mem_flatMap.mp ht
  exact hd s' hs' t ht

end NeverClaim

/-! ## Automata -/

/-- The second formula has the truth value that the first one has when generic names have the values
of the atoms. -/
def SameTruth (atoms : List Symbol) (f : Formula String) (g : Formula Symbol) : Prop :=
  ∀ (value : Symbol → Bool) (generic : String → Bool),
    (∀ i a, atoms[i]? = some a → generic (genericName i) = value a) →
      ∃ b, f.eval generic = .ok b ∧ g.eval value = .ok b

section

variable {atoms : List Symbol} (hatoms : ∀ a ∈ atoms, a.name ∉ Formula.reservedWords)

include hatoms

/-- Atoms can be put into plain guards exactly if all their atoms are generic names, and this keeps
their truth. -/
theorem Guard.IsPlain.exists_renameAtoms_iff {f : Formula String} (hf : Guard.IsPlain f) :
    (∃ g, f.renameAtoms (atomTable atoms) = .ok g) ↔
      ∀ x ∈ f.atoms, ∃ i < atoms.length, x = genericName i := by
  constructor
  · rintro ⟨g, hg⟩ x hx
    obtain ⟨a, ha⟩ := Formula.exists_of_renameAtoms hg x hx
    rcases exists_of_mem_atomTable ha with hgeneric | hconstant
    · exact hgeneric
    · -- the table knows words for truth too, but they were read as constants
      exact absurd hconstant (hf.notConstant x hx)
  · exact fun h => ⟨_, Formula.renameAtoms_atomTable hatoms h⟩

theorem Guard.IsPlain.sameTruth {f : Formula String} (hf : Guard.IsPlain f) {g : Formula Symbol}
    (h : f.renameAtoms (atomTable atoms) = .ok g) : SameTruth atoms f g := by
  intro value generic hvalue
  have hgeneric := (hf.exists_renameAtoms_iff hatoms).mp ⟨g, h⟩
  rw [Formula.renameAtoms_atomTable hatoms hgeneric] at h
  cases h
  obtain ⟨b, hb⟩ := (Formula.eval_isOk_iff generic f).mpr hf.isPropositional
  refine ⟨b, hb, ?_⟩
  rw [Formula.eval_map, ← hb]
  refine Formula.eval_congr fun x hx => ?_
  obtain ⟨i, hi, rfl⟩ := hgeneric x hx
  have hget := List.getElem?_eq_getElem hi
  rw [atomOf_genericName hget, hvalue i _ hget]

variable {imported : Automaton String}
  (hplain : ∀ t ∈ imported.transitions, Guard.IsPlain t.guard)

include hplain

theorem Automaton.exists_renameAtoms_iff :
    (∃ a, imported.renameAtoms (atomTable atoms) = .ok a) ↔
      ∀ t ∈ imported.transitions, ∀ x ∈ t.guard.atoms, ∃ i < atoms.length, x = genericName i := by
  constructor
  · rintro ⟨a, ha⟩ t ht
    obtain ⟨u, -, htu⟩ :=
      exists_mem_of_forall₂ (Automaton.rel_of_renameAtoms ha).transitions.flip ht
    exact ((hplain t ht).exists_renameAtoms_iff hatoms).mp ⟨u.guard, htu.guard⟩
  · intro h
    cases ha : imported.renameAtoms (atomTable atoms) with
    | ok a => exact ⟨a, rfl⟩
    | error e =>
      obtain ⟨t, ht, he⟩ := Automaton.exists_of_renameAtoms_eq_error ha
      rw [Formula.renameAtoms_atomTable hatoms (h t ht)] at he
      cases he

theorem Automaton.rel_sameTruth {a : Automaton Symbol}
    (h : imported.renameAtoms (atomTable atoms) = .ok a) :
    Automaton.Rel (SameTruth atoms) imported a :=
  (Automaton.rel_of_renameAtoms h).imp fun t ht _ hguard => (hplain t ht).sameTruth hatoms hguard

end

/-- A translator sees the formula with generic names. -/
theorem genericFormula_eq (p : Property) : genericFormula p = .ok p.formula.generic.infixed := by
  rw [genericFormula, Formula.renameAtoms_genericTable]

/-- The automaton of a property is that of the answer to its formula with generic names. -/
theorem automatonOf_eq (translator : Translator) (p : Property) :
    automatonOf translator p = automatonOfAnswer p
      (translator.describe p.formula.generic.infixed)
      (translator.translate p.formula.generic.infixed) := by
  rw [automatonOf, genericFormula_eq]

/-- The automaton of a never-claim has the atoms of the property for generic names. -/
theorem automatonOfAnswer_eq_ok_iff {p : Property} {description claim : String}
    {imported : Automaton String}
    (h : NeverClaim.toAutomaton p.name.name ⟨claim, some description⟩ = .ok imported)
    {a : Automaton Symbol} :
    automatonOfAnswer p description (.ok claim) = .ok a ↔
      imported.renameAtoms (atomTable p.formula.constants) = .ok a := by
  simp only [automatonOfAnswer, h]
  cases imported.renameAtoms (atomTable p.formula.constants) with
  | error e => simp
  | ok b => simp

/-- Renaming atoms for a translator is undone exactly.  The translator is given the formula with
generic names, which get the atoms of the property back.  Where its answer is a never-claim, the
property has an automaton exactly if all atoms of guards are generic names of its atoms; this is the
automaton of the never-claim, with guards that say of the atoms what they say of generic names.

`hread` says that the formula was read from words, as every formula of a file is; it keeps the words
for constants from being names of atoms.  Nothing is asked of the translator, whose answer may use
names that the property does not have. -/
theorem automatonOf_generic {ws : List Symbol} {p : Property}
    (hread : Formula.ofWords ws = .ok p.formula) (translator : Translator) :
    (genericFormula p = .ok p.formula.generic.infixed ∧
      automatonOf translator p = automatonOfAnswer p
        (translator.describe p.formula.generic.infixed)
        (translator.translate p.formula.generic.infixed)) ∧
    (∃ back, p.formula.generic.renameAtoms (atomTable p.formula.constants) = .ok back ∧
      back.map nameOf = p.formula.map nameOf) ∧
    ∀ (claim : String) (imported : Automaton String),
      translator.translate p.formula.generic.infixed = .ok claim →
      NeverClaim.toAutomaton p.name.name
        ⟨claim, some (translator.describe p.formula.generic.infixed)⟩ = .ok imported →
      ((∃ a, automatonOf translator p = .ok a) ↔
        ∀ t ∈ imported.transitions, ∀ x ∈ t.guard.atoms,
          ∃ i < p.formula.constants.length, x = genericName i) ∧
      ∀ a, automatonOf translator p = .ok a →
        Automaton.Rel (SameTruth p.formula.constants) imported a := by
  have hatoms : ∀ a ∈ p.formula.constants, a.name ∉ Formula.reservedWords := fun a ha =>
    Formula.notMem_reservedWords hread (mem_of_mem_distinctBy ha)
  refine ⟨⟨genericFormula_eq p, automatonOf_eq translator p⟩,
    ⟨_, Formula.renameAtoms_atomTable hatoms fun x => Formula.exists_of_mem_atoms_generic,
      Formula.map_atomOf_generic p.formula⟩, fun claim imported hclaim himport => ?_⟩
  have hplain := NeverClaim.isPlain_toAutomaton himport
  have hautomaton : ∀ a, automatonOf translator p = .ok a ↔
      imported.renameAtoms (atomTable p.formula.constants) = .ok a := fun a => by
    rw [automatonOf_eq, hclaim, automatonOfAnswer_eq_ok_iff himport]
  simp only [hautomaton]
  exact ⟨Automaton.exists_renameAtoms_iff hatoms hplain,
    fun a => Automaton.rel_sameTruth hatoms hplain⟩

/-! ## Generic names that are swapped -/

/-- A property whose atoms are the generic names of each other. -/
def swapped : Property :=
  ⟨.ofName "swapped",
    .binary .strongUntil (.atom (.ofName "c1")) (.atom (.ofName "c0")), false⟩

/-- A never-claim for the formula that a translator is given. -/
def swappedClaim : String :=
  "T0_init :\nif\n:: (c0 && !c1) -> goto T0_init\n:: (c1) -> goto accept_S1\nfi;\n"
    ++ "accept_S1 :\nskip\n"

/-- Its automaton. -/
def swappedAutomaton : Automaton String where
  name := "swapped"
  states :=
    [⟨"T0_init", 0, true, false,
        [⟨0, 0, .and (.atom "c0") (.neg (.atom "c1"))⟩, ⟨0, 1, .atom "c1"⟩]⟩,
      ⟨"accept_S1", 1, false, true, [⟨1, 1, .const true⟩]⟩]
  initial := 0

/-- In its guards each atom stands for the other one. -/
theorem automatonOf_swapped :
    Formula.ofWords (["U", "c1", "c0"].map Symbol.ofName) = .ok swapped.formula ∧
      genericFormula swapped = .ok "(c0 U c1)" ∧
      ∃ a, automatonOf (.ofTable [("(c0 U c1)", swappedClaim)]) swapped = .ok a ∧
        Automaton.Rel (SameTruth [.ofName "c1", .ofName "c0"]) swappedAutomaton a := by
  have hread : Formula.ofWords (["U", "c1", "c0"].map Symbol.ofName) = .ok swapped.formula := rfl
  have hgeneric : swapped.formula.generic.infixed = "(c0 U c1)" := by decide +kernel
  obtain ⟨⟨hformula, -⟩, -, hanswer⟩ :=
    automatonOf_generic hread (.ofTable [("(c0 U c1)", swappedClaim)])
  rw [hgeneric] at hformula hanswer
  have himport : NeverClaim.toAutomaton "swapped"
      ⟨swappedClaim, some (Translator.describeFormula "(c0 U c1)")⟩ = .ok swappedAutomaton :=
    eq_ok_of_toOption (by decide +kernel)
  obtain ⟨hexists, hrel⟩ := hanswer swappedClaim swappedAutomaton rfl himport
  obtain ⟨a, ha⟩ := hexists.mpr (by decide +kernel)
  exact ⟨hread, hformula, a, ha, hrel a ha⟩

end PlanConstraints

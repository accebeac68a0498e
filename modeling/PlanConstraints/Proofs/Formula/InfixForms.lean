import PlanConstraints.Proofs.Automaton.GenericNames
import PlanConstraints.Proofs.Formula.Guards

set_option autoImplicit false

/-!
# What a translator is given

A translator is given a formula with operators between its operands and generic names for its atoms.
Unary operators stand right before what they apply to, in parentheses or not, and a weak until is
spelled out; still the text tells the formula, up to the spelling of weak untils (`infixed_eq_iff`).
The reason is that no form is the beginning of another one, if a space or a closing parenthesis
follows (`IsGeneric.tells`).
-/

namespace PlanConstraints

namespace Formula

variable {α : Type}

/-! ## Weak until -/

/-- The formula in which every weak until is spelled out: the first operand until the second one, or
the first one at all times. -/
def unfoldWeak : Formula α → Formula α
  | .const b => .const b
  | .atom a => .atom a
  | .unary op f => .unary op f.unfoldWeak
  | .binary .weakUntil f g =>
    .or (.binary .strongUntil f.unfoldWeak g.unfoldWeak) (.unary .always f.unfoldWeak)
  | .binary op f g => .binary op f.unfoldWeak g.unfoldWeak

/-- There is no weak until in the formula. -/
def NoWeak : Formula α → Prop
  | .const _ | .atom _ => True
  | .unary _ f => f.NoWeak
  | .binary op f g => op ≠ .weakUntil ∧ f.NoWeak ∧ g.NoWeak

theorem noWeak_unfoldWeak (f : Formula α) : f.unfoldWeak.NoWeak := by
  induction f with
  | const b => trivial
  | atom a => trivial
  | unary op f ih => exact ih
  | binary op f g ihf ihg =>
    cases op with
    | and => exact ⟨BinaryOp.noConfusion, ihf, ihg⟩
    | or => exact ⟨BinaryOp.noConfusion, ihf, ihg⟩
    | strongUntil => exact ⟨BinaryOp.noConfusion, ihf, ihg⟩
    | weakUntil => exact ⟨BinaryOp.noConfusion, ⟨BinaryOp.noConfusion, ihf, ihg⟩, ihf⟩

theorem atoms_unfoldWeak_subset (f : Formula α) : f.unfoldWeak.atoms ⊆ f.atoms := by
  induction f with
  | const b => exact List.Subset.refl _
  | atom a => exact List.Subset.refl _
  | unary op f ih => exact ih
  | binary op f g ihf ihg =>
    have hf : f.unfoldWeak.atoms ⊆ f.atoms ++ g.atoms :=
      List.Subset.trans ihf (List.subset_append_left _ _)
    have hg : g.unfoldWeak.atoms ⊆ f.atoms ++ g.atoms :=
      List.Subset.trans ihg (List.subset_append_right _ _)
    have hboth := List.append_subset.mpr ⟨hf, hg⟩
    cases op with
    | and => exact hboth
    | or => exact hboth
    | strongUntil => exact hboth
    | weakUntil => exact List.append_subset.mpr ⟨hboth, hf⟩

theorem isLeaf_unfoldWeak (f : Formula α) : f.unfoldWeak.isLeaf = f.isLeaf := by
  cases f with
  | const b => rfl
  | atom a => rfl
  | unary op f => rfl
  | binary op f g => cases op <;> rfl

section

variable [Named α]

theorem infixChars_unary (op : UnaryOp) (f : Formula α) :
    (Formula.unary op f).infixChars = op.sign.toList ++ enclose f.isLeaf f.infixChars := rfl

theorem infixChars_binary {op : BinaryOp} (hop : op ≠ .weakUntil) (f g : Formula α) :
    (Formula.binary op f g).infixChars =
      '(' :: (f.infixChars ++ ' ' :: (op.sign.toList ++ ' ' :: (g.infixChars ++ [')']))) := by
  cases op with
  | weakUntil => exact absurd rfl hop
  | _ => rfl

/-- A weak until has the form of what it is spelled out as. -/
theorem infixChars_weakUntil (f g : Formula α) :
    (Formula.binary .weakUntil f g).infixChars =
      (Formula.or (.binary .strongUntil f g) (.unary .always f)).infixChars := by
  change "((".toList ++ f.infixChars ++ " U ".toList ++ g.infixChars ++ ") || []".toList
    ++ enclose f.isLeaf f.infixChars ++ [')'] = _
  simp [Formula.or, infixChars_binary, infixChars_unary, BinaryOp.sign, UnaryOp.sign]

variable {β : Type} [Named β] {f g : Formula α} {f' g' : Formula β}

theorem infixChars_unary_congr (op : UnaryOp) (hleaf : f.isLeaf = f'.isLeaf)
    (hf : f.infixChars = f'.infixChars) :
    (Formula.unary op f).infixChars = (Formula.unary op f').infixChars := by
  rw [infixChars_unary, infixChars_unary, hleaf, hf]

theorem infixChars_binary_congr (op : BinaryOp) (hleaf : f.isLeaf = f'.isLeaf)
    (hf : f.infixChars = f'.infixChars) (hg : g.infixChars = g'.infixChars) :
    (Formula.binary op f g).infixChars = (Formula.binary op f' g').infixChars := by
  by_cases hop : op = .weakUntil
  · have halways := infixChars_unary_congr .always hleaf hf
    rw [hop, infixChars_weakUntil, infixChars_weakUntil]
    simp [Formula.or, infixChars_binary, hf, hg, halways]
  · rw [infixChars_binary hop, infixChars_binary hop, hf, hg]

/-- Spelling weak untils out does not change the form. -/
theorem infixChars_unfoldWeak (f : Formula α) : f.unfoldWeak.infixChars = f.infixChars := by
  induction f with
  | const b => rfl
  | atom a => rfl
  | unary op f ih => exact infixChars_unary_congr op (isLeaf_unfoldWeak f) ih
  | binary op f g ihf ihg =>
    have hsame := infixChars_binary_congr op (isLeaf_unfoldWeak f) ihf ihg
    cases op with
    | weakUntil => exact (infixChars_weakUntil _ _).symm.trans hsame
    | _ => exact hsame

/-- The form says no more of atoms than their names. -/
theorem infixChars_map_nameOf (f : Formula α) : (f.map nameOf).infixChars = f.infixChars := by
  have hleaf : ∀ g : Formula α, (g.map nameOf).isLeaf = g.isLeaf := fun g => by cases g <;> rfl
  induction f with
  | const b => cases b <;> rfl
  | atom a => rfl
  | unary op f ih => exact infixChars_unary_congr op (hleaf f) ih
  | binary op f g ihf ihg => exact infixChars_binary_congr op (hleaf f) ihf ihg

end

/-! ## Where a form ends -/

/-- The formula has generic names for its atoms and no weak until. -/
structure IsGeneric (f : Formula String) : Prop where
  noWeak : f.NoWeak
  exists_genericName : ∀ a ∈ f.atoms, ∃ i, a = genericName i

section

variable {f g : Formula String}

theorem IsGeneric.of_unary {op : UnaryOp} (hf : IsGeneric (.unary op f)) : IsGeneric f :=
  ⟨hf.noWeak, hf.exists_genericName⟩

theorem IsGeneric.of_binary {op : BinaryOp} (hf : IsGeneric (.binary op f g)) :
    op ≠ .weakUntil ∧ IsGeneric f ∧ IsGeneric g := by
  obtain ⟨hop, hleft, hright⟩ := hf.noWeak
  obtain ⟨hnames, hnames'⟩ := List.forall_mem_append.mp hf.exists_genericName
  exact ⟨hop, ⟨hleft, hnames⟩, ⟨hright, hnames'⟩⟩

theorem isGeneric_unfoldWeak {α : Type} [Named α] {f : Formula α}
    (hf : ∀ a ∈ f.atoms, ∃ i, nameOf a = genericName i) : IsGeneric (f.map nameOf).unfoldWeak := by
  refine ⟨noWeak_unfoldWeak _, fun a ha => ?_⟩
  have hatom := atoms_unfoldWeak_subset _ ha
  rw [atoms_map] at hatom
  obtain ⟨b, hb, rfl⟩ := List.mem_map.mp hatom
  exact hf b hb

/-- The first character of the form. -/
def lead : Formula String → Char
  | .const true => 't'
  | .const false => 'f'
  | .atom _ => 'c'
  | .unary .neg _ => '!'
  | .unary .eventually _ => '<'
  | .unary .always _ => '['
  | .unary .next _ => 'X'
  | .binary _ _ _ => '('

theorem IsGeneric.infixChars_eq_lead (hf : IsGeneric f) : ∃ cs, f.infixChars = f.lead :: cs := by
  cases f with
  | const b => cases b <;> exact ⟨_, rfl⟩
  | atom a =>
    obtain ⟨i, rfl⟩ := hf.exists_genericName a List.mem_cons_self
    refine ⟨(toString i).toList, ?_⟩
    change (genericName i).toList = _
    simp [genericName, lead]
  | unary op f => cases op <;> exact ⟨_, rfl⟩
  | binary op f g => exact ⟨_, infixChars_binary hf.of_binary.1 f g⟩

/-- Forms that start alike start with the same character. -/
theorem IsGeneric.lead_eq (hf : IsGeneric f) (hg : IsGeneric g) {r r' : List Char}
    (h : f.infixChars ++ r = g.infixChars ++ r') : f.lead = g.lead := by
  obtain ⟨cs, hcs⟩ := hf.infixChars_eq_lead
  obtain ⟨ds, hds⟩ := hg.infixChars_eq_lead
  rw [hcs, hds] at h
  exact (List.cons.inj h).1

/-- The characters stand neither between operands nor behind the last one. -/
def IsSolid (cs : List Char) : Prop := ∀ c ∈ cs, c ≠ ' ' ∧ c ≠ ')'

/-- What is solid ends where a delimiter follows. -/
theorem IsSolid.append_inj {cs ds r r' : List Char} (hcs : IsSolid cs) (hds : IsSolid ds)
    (hr : Guard.Delimits r) (hr' : Guard.Delimits r') (h : cs ++ r = ds ++ r') :
    cs = ds ∧ r = r' := by
  -- A solid character does not start what follows.
  have hstart : ∀ {c : Char} {more s s' : List Char}, IsSolid (c :: more) → Guard.Delimits s →
      s ≠ c :: s' := by
    rintro c more s s' hsolid hs rfl
    obtain ⟨hspace, hclosing⟩ := hsolid c List.mem_cons_self
    exact (hs c rfl).elim hspace hclosing
  induction cs generalizing ds with
  | nil =>
    cases ds with
    | nil => exact ⟨rfl, h⟩
    | cons d ds => exact absurd h (hstart hds hr)
  | cons c cs ih =>
    cases ds with
    | nil => exact absurd h.symm (hstart hcs hr')
    | cons d ds =>
      obtain ⟨rfl, htail⟩ := List.cons.inj h
      obtain ⟨rfl, hrest⟩ := ih (fun x hx => hcs x (List.mem_cons_of_mem _ hx))
        (fun x hx => hds x (List.mem_cons_of_mem _ hx)) htail
      exact ⟨rfl, hrest⟩

theorem isSolid_genericName (i : Nat) : IsSolid (genericName i).toList := by
  intro c hc
  have hname : c.isAlphanum = true := by
    rw [genericName, String.toList_append, List.mem_append, Text.toList_toString] at hc
    rcases hc with hc | hc
    · rw [List.mem_singleton.mp hc]
      rfl
    · simp [Char.isAlphanum, Text.isDigit_of_mem_toDigits hc]
  constructor <;> rintro rfl <;> revert hname <;> decide

theorem IsGeneric.isSolid (hf : IsGeneric f) (hleaf : f.isLeaf = true) : IsSolid f.infixChars := by
  cases f with
  | const b => cases b <;> unfold IsSolid <;> decide
  | atom a =>
    obtain ⟨i, rfl⟩ := hf.exists_genericName a List.mem_cons_self
    exact isSolid_genericName i
  | unary op f => cases hleaf
  | binary op f g => cases hleaf

end

/-! ## Operands of unary operators -/

/-- The form of an operand of a unary operator. -/
def operandChars (f : Formula String) : List Char := enclose f.isLeaf f.infixChars

/-- What is written tells the formula, and where it ends, if a delimiter follows. -/
def Tells (write : Formula String → List Char) (f : Formula String) : Prop :=
  ∀ {g : Formula String} {r r' : List Char}, IsGeneric g → Guard.Delimits r → Guard.Delimits r' →
    write f ++ r = write g ++ r' → f = g ∧ r = r'

section

variable {f g : Formula String}

theorem operandChars_of_isLeaf (h : f.isLeaf = true) : f.operandChars = f.infixChars := by
  rw [operandChars, enclose, h, Bool.true_or, if_pos rfl]

/-- A unary operation gets parentheses, since its form ends with one but does not start so. -/
theorem operandChars_unary (op : UnaryOp) (f : Formula String) :
    (Formula.unary op f).operandChars = '(' :: ((Formula.unary op f).infixChars ++ [')']) := by
  cases op <;> rfl

/-- A binary operation has its parentheses already. -/
theorem operandChars_binary {op : BinaryOp} (hop : op ≠ .weakUntil) (f g : Formula String) :
    (Formula.binary op f g).operandChars = (Formula.binary op f g).infixChars := by
  rw [operandChars, infixChars_binary hop, enclose, if_pos]
  simp [List.getLast?_cons]

/-- The form of an operand is the form itself, unless that is a unary operation. -/
theorem IsGeneric.operandChars_eq (hf : IsGeneric f) :
    (∃ op f', f = .unary op f') ∨ f.operandChars = f.infixChars := by
  cases f with
  | const b => exact .inr (operandChars_of_isLeaf rfl)
  | atom a => exact .inr (operandChars_of_isLeaf rfl)
  | unary op f => exact .inl ⟨op, f, rfl⟩
  | binary op f g => exact .inr (operandChars_binary hf.of_binary.1 f g)

/-- Only binary operations start with a parenthesis, and the first operand stands behind it. -/
theorem IsGeneric.exists_binary (hg : IsGeneric g) {r cs : List Char}
    (h : g.infixChars ++ r = '(' :: cs) : ∃ op left right, g = .binary op left right ∧
      cs = left.infixChars ++ ' ' :: (op.sign.toList ++ ' ' :: (right.infixChars ++ ')' :: r)) := by
  obtain ⟨ds, hds⟩ := hg.infixChars_eq_lead
  have hlead : g.lead = '(' := by
    rw [hds] at h
    exact (List.cons.inj h).1
  cases g with
  | const b => cases b <;> cases hlead
  | atom a => cases hlead
  | unary op f => cases op <;> cases hlead
  | binary op left right =>
    rw [infixChars_binary hg.of_binary.1] at h
    refine ⟨op, left, right, rfl, ?_⟩
    simpa using (List.cons.inj h).2.symm

theorem isLeaf_eq (f : Formula String) : f.isLeaf = ['t', 'f', 'c'].contains f.lead := by
  cases f with
  | const b => cases b <;> rfl
  | atom a => rfl
  | unary op f => cases op <;> rfl
  | binary op f g => rfl

theorem exists_of_lead_unary {op : UnaryOp} (h : (Formula.unary op f).lead = g.lead) :
    ∃ g', g = .unary op g' := by
  cases g with
  | const b => cases b <;> cases op <;> cases h
  | atom a => cases op <;> cases h
  | unary op' g' => cases op <;> cases op' <;> first | exact ⟨g', rfl⟩ | cases h
  | binary op' f' g' => cases op <;> cases h

theorem eq_of_isLeaf (hf : f.isLeaf = true) (hg : g.isLeaf = true) (hlead : f.lead = g.lead)
    (h : f.infixChars = g.infixChars) : f = g := by
  cases f with
  | const b =>
    cases g with
    | const b' => cases b <;> cases b' <;> first | rfl | cases hlead
    | atom a => cases b <;> cases hlead
    | unary op g => cases hg
    | binary op g g' => cases hg
  | atom a =>
    cases g with
    | const b => cases b <;> cases hlead
    | atom a' => exact congrArg Formula.atom (String.toList_inj.mp h)
    | unary op g => cases hg
    | binary op g g' => cases hg
  | unary op f => cases hf
  | binary op f f' => cases hf

theorem eq_of_sign {op op' : BinaryOp} (h : op.sign = op'.sign) : op = op' := by
  have hmeaning := ofWord_sign_binary op
  rw [h, ofWord_sign_binary] at hmeaning
  exact (Meaning.binary.inj hmeaning).symm

theorem isSolid_sign (op : BinaryOp) : IsSolid op.sign.toList := by
  cases op <;> unfold IsSolid <;> decide

/-- An operand is told by its form if the formula is, and its first operand if it has two. -/
theorem tells_operandChars (hf : IsGeneric f) (htells : Tells infixChars f)
    (hleft : ∀ op left right, f = .binary op left right → Tells infixChars left) :
    Tells operandChars f := by
  intro g r r' hg hr hr' h
  -- Behind the operand of a group there is a parenthesis, behind a first operand a space.
  have hcross : ∀ {s s' : List Char}, ')' :: s ≠ ' ' :: s' := fun h => by cases h
  rcases hf.operandChars_eq with ⟨op, f', rfl⟩ | hform
  · rw [operandChars_unary, List.cons_append, List.append_assoc, List.singleton_append] at h
    rcases hg.operandChars_eq with ⟨op', g', rfl⟩ | hform'
    · rw [operandChars_unary, List.cons_append, List.append_assoc, List.singleton_append] at h
      obtain ⟨heq, hrest⟩ := htells hg (Guard.delimits_closing r) (Guard.delimits_closing r')
        (List.cons.inj h).2
      exact ⟨heq, (List.cons.inj hrest).2⟩
    · rw [hform'] at h
      obtain ⟨op', left, right, rfl, hchars⟩ := hg.exists_binary h.symm
      obtain ⟨-, hrest⟩ := htells hg.of_binary.2.1 (Guard.delimits_closing r)
        (Guard.delimits_space _) hchars
      exact absurd hrest hcross
  · rw [hform] at h
    rcases hg.operandChars_eq with ⟨op', g', rfl⟩ | hform'
    · rw [operandChars_unary, List.cons_append, List.append_assoc, List.singleton_append] at h
      obtain ⟨op, left, right, rfl, hchars⟩ := hf.exists_binary h
      obtain ⟨-, hrest⟩ := hleft op left right rfl hg (Guard.delimits_space _)
        (Guard.delimits_closing r') hchars.symm
      exact absurd hrest.symm hcross
    · rw [hform'] at h
      exact htells hg hr hr' h

/-- A leaf is told by its form, which is solid. -/
theorem tells_of_isLeaf (hf : IsGeneric f) (hleaf : f.isLeaf = true) : Tells infixChars f := by
  intro g r r' hg hr hr' h
  have hlead := hf.lead_eq hg h
  have hleaf' : g.isLeaf = true := by rwa [isLeaf_eq, ← hlead, ← isLeaf_eq]
  obtain ⟨hchars, hrest⟩ := (hf.isSolid hleaf).append_inj (hg.isSolid hleaf') hr hr' h
  exact ⟨eq_of_isLeaf hleaf hleaf' hlead hchars, hrest⟩

/-- The form of a generic formula tells the formula, and so does its form as an operand. -/
theorem IsGeneric.tells (hf : IsGeneric f) : Tells infixChars f ∧ Tells operandChars f := by
  induction f with
  | const b =>
    have htells : Tells infixChars (.const b) := tells_of_isLeaf hf rfl
    exact ⟨htells, tells_operandChars hf htells fun _ _ _ h => by cases h⟩
  | atom a =>
    have htells : Tells infixChars (.atom a) := tells_of_isLeaf hf rfl
    exact ⟨htells, tells_operandChars hf htells fun _ _ _ h => by cases h⟩
  | unary op f ih =>
    have htells : Tells infixChars (.unary op f) := by
      intro g r r' hg hr hr' h
      obtain ⟨g, rfl⟩ := exists_of_lead_unary (hf.lead_eq hg h)
      rw [infixChars_unary, infixChars_unary, List.append_assoc, List.append_assoc] at h
      obtain ⟨rfl, hrest⟩ := (ih hf.of_unary).2 hg.of_unary hr hr' (List.append_cancel_left h)
      exact ⟨rfl, hrest⟩
    exact ⟨htells, tells_operandChars hf htells fun _ _ _ h => by cases h⟩
  | binary op left right ihl ihr =>
    obtain ⟨hop, hleft, hright⟩ := hf.of_binary
    have htells : Tells infixChars (.binary op left right) := by
      intro g r r' hg hr hr' h
      rw [infixChars_binary hop, List.cons_append] at h
      obtain ⟨op', left', right', rfl, hchars⟩ := hg.exists_binary h.symm
      obtain ⟨hop', hleft', hright'⟩ := hg.of_binary
      simp only [List.append_assoc, List.cons_append, List.nil_append] at hchars
      -- The first operands end alike, so the operators start alike, and so do the second operands.
      obtain ⟨rfl, hop''⟩ := (ihl hleft).1 hleft' (Guard.delimits_space _)
        (Guard.delimits_space _) hchars
      obtain ⟨hsign, hoperand⟩ := (isSolid_sign op).append_inj (isSolid_sign op')
        (Guard.delimits_space _) (Guard.delimits_space _) (List.cons.inj hop'').2
      obtain ⟨rfl, hrest⟩ := (ihr hright).1 hright' (Guard.delimits_closing _)
        (Guard.delimits_closing _) (List.cons.inj hoperand).2
      exact ⟨by rw [eq_of_sign (String.toList_inj.mp hsign)], (List.cons.inj hrest).2⟩
    refine ⟨htells, tells_operandChars hf htells fun _ _ _ h => ?_⟩
    cases h
    exact (ihl hleft).1

end

/-! ## What a translator is given -/

/-- The formulas of generic names that are given as the same text are the same, up to the spelling
of weak untils.

The hypotheses on atoms bear the load: a name with parentheses or operators in it could look like a
formula.  Weak untils are spelled out when they are written, which is why the formulas agree only up
to that. -/
theorem infixed_eq_iff {α : Type} [Named α] {f g : Formula α}
    (hf : ∀ a ∈ f.atoms, ∃ i, nameOf a = genericName i)
    (hg : ∀ a ∈ g.atoms, ∃ i, nameOf a = genericName i) :
    f.infixed = g.infixed ↔ (f.map nameOf).unfoldWeak = (g.map nameOf).unfoldWeak := by
  have hchars : ∀ h : Formula α, (h.map nameOf).unfoldWeak.infixChars = h.infixChars := fun h => by
    rw [infixChars_unfoldWeak, infixChars_map_nameOf]
  constructor
  · intro h
    have hsame : (f.map nameOf).unfoldWeak.infixChars ++ [] =
        (g.map nameOf).unfoldWeak.infixChars ++ [] := by
      rw [hchars, hchars, String.ofList_inj.mp h]
    have hend : Guard.Delimits [] := fun _ hc => by cases hc
    exact ((isGeneric_unfoldWeak hf).tells.1 (isGeneric_unfoldWeak hg) hend hend hsame).1
  · intro h
    rw [infixed, infixed, ← hchars f, ← hchars g, h]

/-- A weak until is given as the text of its spelling, also if the name of one operand begins with
the name of the other. -/
theorem infixed_weakUntil :
    let f : Formula String := .binary .weakUntil (.atom "c1") (.unary .next (.atom "c10"))
    let g : Formula String := .or (.binary .strongUntil (.atom "c1") (.unary .next (.atom "c10")))
      (.unary .always (.atom "c1"))
    ((∀ a ∈ f.atoms, ∃ i, nameOf a = genericName i) ∧
        ∀ a ∈ g.atoms, ∃ i, nameOf a = genericName i) ∧
      f.infixed = "((c1 U Xc10) || []c1)" ∧ f.infixed = g.infixed := by
  intro f g
  have hf : ∀ a ∈ f.atoms, ∃ i, nameOf a = genericName i :=
    List.forall_mem_cons.mpr ⟨⟨1, by decide⟩, List.forall_mem_singleton.mpr ⟨10, by decide⟩⟩
  have hg : ∀ a ∈ g.atoms, ∃ i, nameOf a = genericName i :=
    List.forall_mem_append.mpr ⟨hf, List.forall_mem_singleton.mpr ⟨1, by decide⟩⟩
  exact ⟨⟨hf, hg⟩, by decide, (infixed_eq_iff hf hg).mpr rfl⟩

end Formula

end PlanConstraints

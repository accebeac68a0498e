import PlanConstraints.Formula.Infixed
import PlanConstraints.Proofs.Formula.Clauses
import PlanConstraints.Proofs.Formula.Polish
import PlanConstraints.Proofs.Text.Lines

set_option autoImplicit false

/-!
# The two forms of a guard

A guard is a propositional formula, written in Polish form or with operators between operands.  The
Polish reading, which is tried first, reads no further in the second form than the first word, which
is no operator; so it succeeds on single words only, where the two forms agree (`polish?_core`).
What it leaves is read between operands (`ofTokens_core`).
-/

namespace PlanConstraints

namespace Text

/-- The code points of the blank characters. -/
def blankCodes : List Nat :=
  List.range' 9 5 ++ List.range' 0x2000 11 ++
    [0x20, 0x85, 0xa0, 0x1680, 0x2028, 0x2029, 0x202f, 0x205f, 0x3000]

theorem toNat_mem_blankCodes {c : Char} (h : isBlank c = true) : c.toNat ∈ blankCodes := by
  simp only [isBlank, Bool.or_eq_true, Bool.and_eq_true, decide_eq_true_eq, beq_iff_eq] at h
  simp only [blankCodes, List.mem_append, List.mem_range'_1, List.mem_cons, List.not_mem_nil,
    or_false]
  omega

/-- The characters of names are not blank. -/
theorem isBlank_of_isNameChar {c : Char} (h : isNameChar c = true) : isBlank c = false := by
  cases hblank : isBlank c with
  | false => rfl
  | true =>
    have hnone : ∀ n ∈ blankCodes, isNameChar (Char.ofNat n) = false := by decide +kernel
    have hc := hnone _ (toNat_mem_blankCodes hblank)
    rw [Char.ofNat_toNat, h] at hc
    cases hc

theorem isNameChar_of_isAlphanum {c : Char} (h : c.isAlphanum = true) : isNameChar c = true := by
  have hascii : c.toNat < 128 := by
    change ((decide (c.val ≥ 'A'.val ∧ c.val ≤ 'Z'.val)
      || decide (c.val ≥ 'a'.val) && decide (c.val ≤ 'z'.val))
      || decide (c.val ≥ '0'.val) && decide (c.val ≤ '9'.val)) = true at h
    simp only [Bool.or_eq_true, Bool.and_eq_true, decide_eq_true_eq] at h
    have hle : c.val ≤ 122 := by
      rcases h with (⟨-, h⟩ | ⟨-, h⟩) | ⟨-, h⟩
      · exact UInt32.le_trans h (by decide)
      · exact UInt32.le_trans h (by decide)
      · exact UInt32.le_trans h (by decide)
    exact Nat.lt_of_le_of_lt (UInt32.le_iff_toNat_le.mp hle) (by decide)
  simp [isNameChar, isAlphanumeric_of_isAlphanum hascii h]

end Text

namespace Guard

/-! ## Atoms of guards -/

/-- The name of an atom: a word of letters, digits and underscores that does not mean anything
else. -/
structure IsAtomName (name : String) : Prop where
  ne_empty : name ≠ ""
  isNameChar : ∀ c ∈ name.toList, Text.isNameChar c = true
  notReserved : name ∉ ["true", "false", "1", "0", "X", "U", "W"]

instance (name : String) : Decidable (IsAtomName name) :=
  decidable_of_iff (name ≠ "" ∧ (∀ c ∈ name.toList, Text.isNameChar c = true) ∧
      name ∉ ["true", "false", "1", "0", "X", "U", "W"])
    ⟨fun h => ⟨h.1, h.2.1, h.2.2⟩, fun h => ⟨h.ne_empty, h.isNameChar, h.notReserved⟩⟩

theorem IsAtomName.isWord {name : String} (h : IsAtomName name) : Text.IsWord name.toList :=
  ⟨fun hnil => h.ne_empty (String.toList_eq_nil_iff.mp hnil),
    fun c hc => Text.isBlank_of_isNameChar (h.isNameChar c hc)⟩

theorem IsAtomName.ofWord {name : String} (h : IsAtomName name) :
    Formula.Meaning.ofWord name = .atom := by
  have hsigns : ∀ w ∈ Formula.reservedWords, w ∈ ["true", "false", "1", "0", "X", "U", "W"] ∨
      ¬ ∀ c ∈ w.toList, Text.isNameChar c = true := by decide +kernel
  refine Formula.ofWord_eq_atom_iff.mpr fun hmem => ?_
  rcases hsigns name hmem with hreserved | hsign
  · exact h.notReserved hreserved
  · exact hsign h.isNameChar

/-- The formula is a guard: it is propositional, and its atoms have names. -/
structure IsGuard (f : Formula String) : Prop where
  isPropositional : f.isPropositional = true
  isAtomName : ∀ a ∈ f.atoms, IsAtomName a

instance (f : Formula String) : Decidable (IsGuard f) :=
  decidable_of_iff (f.isPropositional = true ∧ ∀ a ∈ f.atoms, IsAtomName a)
    ⟨fun h => ⟨h.1, h.2⟩, fun h => ⟨h.isPropositional, h.isAtomName⟩⟩

variable {f g : Formula String} {guard : String}

theorem IsGuard.namesAtoms (hf : IsGuard f) : f.NamesAtoms :=
  fun a ha => (hf.isAtomName a ha).ofWord

theorem IsGuard.isWord (hf : IsGuard f) {a : String} (ha : a ∈ f.atoms) : Text.IsWord a.toList :=
  (hf.isAtomName a ha).isWord

theorem IsGuard.isNameChar (hf : IsGuard f) {a : String} (ha : a ∈ f.atoms) {c : Char}
    (hc : c ∈ a.toList) : Text.isNameChar c = true := (hf.isAtomName a ha).isNameChar c hc

theorem IsGuard.of_neg (hf : IsGuard (.neg f)) : IsGuard f := ⟨hf.isPropositional, hf.isAtomName⟩

theorem IsGuard.op_eq {op : UnaryOp} (hf : IsGuard (.unary op f)) : op = .neg := by
  have h := hf.isPropositional
  cases op with
  | neg => rfl
  | eventually => cases h
  | always => cases h
  | next => cases h

theorem IsGuard.of_binary {op : BinaryOp} (hf : IsGuard (.binary op f g)) :
    (op = .and ∨ op = .or) ∧ IsGuard f ∧ IsGuard g := by
  have hleft : ∀ a ∈ f.atoms, IsAtomName a := fun a ha =>
    hf.isAtomName a (List.mem_append_left _ ha)
  have hright : ∀ a ∈ g.atoms, IsAtomName a := fun a ha =>
    hf.isAtomName a (List.mem_append_right _ ha)
  have h := hf.isPropositional
  cases op with
  | and =>
    obtain ⟨hf', hg'⟩ := Formula.isPropositional_and_iff.mp h
    exact ⟨.inl rfl, ⟨hf', hleft⟩, ⟨hg', hright⟩⟩
  | or =>
    obtain ⟨hf', hg'⟩ := Formula.isPropositional_or_iff.mp h
    exact ⟨.inr rfl, ⟨hf', hleft⟩, ⟨hg', hright⟩⟩
  | strongUntil => cases h
  | weakUntil => cases h

/-! ## Tokens -/

/-- The characters that are tokens or parts of them. -/
def signs : List Char := ['(', ')', '!', '&', '|']

theorem notMem_signs {c : Char} (h : Text.isNameChar c = true) : c ∉ signs := by
  have hnone : ∀ d ∈ signs, Text.isNameChar d = false := by decide +kernel
  intro hc
  rw [hnone c hc] at h
  cases h

theorem tokensAfter_cons {c : Char} (hc : c ∉ signs) (begun cs : List Char) :
    tokensAfter begun (c :: cs) =
      if Text.isBlank c then tokensAfter.flush begun (tokensAfter [] cs)
      else tokensAfter (c :: begun) cs := by
  simp only [signs, List.mem_cons, List.not_mem_nil, or_false, not_or] at hc
  rw [tokensAfter.eq_def]
  split <;> simp_all

theorem tokensAfter_space (cs : List Char) : tokensAfter [] (' ' :: cs) = tokensAfter [] cs := by
  rw [tokensAfter_cons (by decide)]
  rfl

/-- Words and signs are separated. -/
def Delimits (cs : List Char) : Prop := ∀ c ∈ cs.head?, c = ' ' ∨ c = ')'

theorem tokensAfter_delimits {cs : List Char} (h : Delimits cs) (begun : List Char) :
    tokensAfter begun cs = tokensAfter.flush begun (tokensAfter [] cs) := by
  cases cs with
  | nil => rfl
  | cons c cs =>
    rcases h c rfl with rfl | rfl
    · rw [tokensAfter_space, tokensAfter_cons (by decide)]
      rfl
    · rfl

theorem tokensAfter_name {name : List Char} (hname : ∀ c ∈ name, Text.isNameChar c = true)
    (begun cs : List Char) :
    tokensAfter begun (name ++ cs) = tokensAfter (name.reverse ++ begun) cs := by
  induction name generalizing begun with
  | nil => rfl
  | cons c name ih =>
    have hc := hname c List.mem_cons_self
    rw [List.cons_append, tokensAfter_cons (notMem_signs hc), Text.isBlank_of_isNameChar hc,
      if_neg Bool.false_ne_true, ih fun d hd => hname d (List.mem_cons_of_mem _ hd)]
    simp

/-- A name is a token. -/
theorem tokensAfter_name_append {name cs : List Char} (hne : name ≠ [])
    (hname : ∀ c ∈ name, Text.isNameChar c = true) (h : Delimits cs) :
    tokensAfter [] (name ++ cs) = .word (String.ofList name) :: tokensAfter [] cs := by
  rw [tokensAfter_name hname, List.append_nil, tokensAfter_delimits h, tokensAfter.flush]
  simp [hne]

/-! ## Reading between operands -/

/-- Negations are completed before anything else happens. -/
theorem readFrom_neg (f : Formula String) (stack : List Context) (tokens : List Token) :
    readFrom guard (.neg :: stack) (some f) tokens =
      readFrom guard stack (some (.neg f)) tokens := by
  cases tokens with
  | nil => rfl
  | cons token rest => cases token <;> rfl

theorem formulaOfWord_eq {a : String} (h : Formula.Meaning.ofWord a = .atom) :
    formulaOfWord a = .atom a := by
  unfold formulaOfWord
  split
  · cases h
  · cases h
  · cases h
  · cases h
  · rfl

theorem infixChars_atom (a : String) : (Formula.atom a).infixChars = a.toList := rfl

/-- The words for constants are made of letters. -/
theorem isNameChar_of_mem_const (b : Bool) :
    ∀ c ∈ (Formula.const (α := String) b).infixChars, Text.isNameChar c = true := by
  have hletters : ∀ c ∈ (Formula.const (α := String) b).infixChars, c.isAlphanum = true := by
    cases b <;> decide
  exact fun c hc => Text.isNameChar_of_isAlphanum (hletters c hc)

theorem infixChars_neg (f : Formula String) :
    (Formula.neg f).infixChars = '!' :: Formula.enclose f.isLeaf f.infixChars := rfl

/-- A binary operator stands between spaces, and parentheses enclose the operands. -/
theorem infixChars_binary {op : BinaryOp} (hop : op = .and ∨ op = .or) (f g : Formula String) :
    (Formula.binary op f g).infixChars =
      '(' :: (f.infixChars ++ ' ' :: (op.sign.toList ++ ' ' :: (g.infixChars ++ [')']))) := by
  rcases hop with rfl | rfl <;> rfl

/-- Some operands of negations get parentheses. -/
theorem enclose_eq (leaf : Bool) (cs : List Char) :
    Formula.enclose leaf cs = cs ∨ Formula.enclose leaf cs = '(' :: (cs ++ [')']) := by
  unfold Formula.enclose
  split
  · exact .inl rfl
  · exact .inr rfl

theorem mem_enclose {leaf : Bool} {cs : List Char} {c : Char} (h : c ∈ Formula.enclose leaf cs) :
    c ∈ ['(', ')'] ∨ c ∈ cs := by
  rcases enclose_eq leaf cs with henclose | henclose
  · exact .inr (henclose ▸ h)
  · rw [henclose, List.mem_cons, List.mem_append, List.mem_singleton] at h
    rcases h with rfl | h | rfl
    · exact .inl (by decide)
    · exact .inr h
    · exact .inl (by decide)

theorem delimits_space (cs : List Char) : Delimits (' ' :: cs) :=
  fun _ hc => .inl (Option.some.inj hc).symm

theorem delimits_closing (cs : List Char) : Delimits (')' :: cs) :=
  fun _ hc => .inr (Option.some.inj hc).symm

/-- The form with operators between operands is read as one operand. -/
theorem readFrom_infixChars (guard : String) (hf : IsGuard f) (stack : List Context)
    {rest : List Char} (hrest : Delimits rest) :
    readFrom guard stack none (tokensAfter [] (f.infixChars ++ rest)) =
      readFrom guard stack (some f) (tokensAfter [] rest) := by
  induction f generalizing stack rest with
  | const b =>
    have hne : (Formula.const (α := String) b).infixChars ≠ [] := by cases b <;> decide
    rw [tokensAfter_name_append hne (isNameChar_of_mem_const b) hrest]
    cases b <;> rfl
  | atom a =>
    have hmeaning : Formula.Meaning.ofWord a = .atom := hf.namesAtoms a List.mem_cons_self
    rw [infixChars_atom, tokensAfter_name_append (hf.isWord List.mem_cons_self).ne_nil
        (fun c hc => hf.isNameChar List.mem_cons_self hc) hrest,
      String.ofList_toList, readFrom]
    simp only [formulaOfWord_eq hmeaning]
  | unary op f ih =>
    cases hf.op_eq
    rw [infixChars_neg, ← readFrom_neg]
    rcases enclose_eq f.isLeaf f.infixChars with henclose | henclose
    · rw [henclose]
      exact ih hf.of_neg (.neg :: stack) hrest
    · rw [henclose, List.cons_append, List.cons_append, List.append_assoc]
      exact ih hf.of_neg (.group :: .neg :: stack) (delimits_closing rest)
  | binary op f g ihf ihg =>
    obtain ⟨hop, hleft, hright⟩ := hf.of_binary
    have hread := ihf hleft (.group :: stack)
      (delimits_space (op.sign.toList ++ ' ' :: (g.infixChars ++ ')' :: rest)))
    rw [infixChars_binary hop]
    simp only [List.cons_append, List.append_assoc, List.nil_append]
    -- The operator opens a context, which the closing parenthesis completes.
    rcases hop with rfl | rfl
    · have hright := ihg hright (.and f :: .group :: stack) (delimits_closing rest)
      rw [← tokensAfter_space] at hright
      rw [tokensAfter_space] at hread
      exact hread.trans hright
    · have hright := ihg hright (.or f :: .group :: stack) (delimits_closing rest)
      rw [← tokensAfter_space] at hright
      rw [tokensAfter_space] at hread
      exact hread.trans hright

/-! ## Enclosing parentheses -/

theorem isBalanced_cons {c : Char} (hopen : c ≠ '(') (hclose : c ≠ ')') (depth : Nat)
    (cs : List Char) : isBalanced depth (c :: cs) = isBalanced depth cs := by
  rw [isBalanced]
  · exact hopen
  · exact hclose

theorem isBalanced_append {cs : List Char} (h : ∀ c ∈ cs, c ≠ '(' ∧ c ≠ ')') (depth : Nat)
    (rest : List Char) : isBalanced depth (cs ++ rest) = isBalanced depth rest := by
  induction cs with
  | nil => rfl
  | cons c cs ih =>
    obtain ⟨hopen, hclose⟩ := h c List.mem_cons_self
    rw [List.cons_append, isBalanced_cons hopen hclose,
      ih fun d hd => h d (List.mem_cons_of_mem _ hd)]

theorem isBalanced_group {cs : List Char}
    (h : ∀ depth rest, isBalanced depth (cs ++ rest) = isBalanced depth rest) (depth : Nat)
    (rest : List Char) : isBalanced depth ('(' :: (cs ++ ')' :: rest)) = isBalanced depth rest := by
  rw [isBalanced, h, isBalanced, if_neg (Nat.succ_ne_zero depth), Nat.add_sub_cancel]

/-- Characters of names are no parentheses. -/
theorem ne_parens {c : Char} (h : Text.isNameChar c = true) : c ≠ '(' ∧ c ≠ ')' := by
  have hc := notMem_signs h
  simp only [signs, List.mem_cons, List.not_mem_nil, or_false, not_or] at hc
  exact ⟨hc.1, hc.2.1⟩

/-- The form without the parentheses that enclose all of it. -/
def core : Formula String → List Char
  | .binary op f g => f.infixChars ++ ' ' :: (op.sign.toList ++ ' ' :: g.infixChars)
  | f => f.infixChars

theorem infixChars_eq_group {op : BinaryOp} (hop : op = .and ∨ op = .or) (f g : Formula String) :
    (Formula.binary op f g).infixChars = '(' :: (core (.binary op f g) ++ [')']) := by
  rw [infixChars_binary hop, core]
  simp

theorem isBalanced_core_binary {op : BinaryOp} (hop : op = .and ∨ op = .or)
    (hf : ∀ depth rest, isBalanced depth (f.infixChars ++ rest) = isBalanced depth rest)
    (hg : ∀ depth rest, isBalanced depth (g.infixChars ++ rest) = isBalanced depth rest)
    (depth : Nat) (rest : List Char) :
    isBalanced depth (core (.binary op f g) ++ rest) = isBalanced depth rest := by
  have hsign : ∀ c ∈ op.sign.toList, c ≠ '(' ∧ c ≠ ')' := by
    rcases hop with rfl | rfl <;> decide
  rw [core, List.append_assoc, hf, List.cons_append, isBalanced_cons (by decide) (by decide),
    List.append_assoc, isBalanced_append hsign, List.cons_append,
    isBalanced_cons (by decide) (by decide), hg]

/-- Every parenthesis is closed where the form ends. -/
theorem isBalanced_infixChars (hf : IsGuard f) (depth : Nat) (rest : List Char) :
    isBalanced depth (f.infixChars ++ rest) = isBalanced depth rest := by
  induction f generalizing depth rest with
  | const b => cases b <;> exact isBalanced_append (by decide) depth rest
  | atom a =>
    exact isBalanced_append (fun c hc => ne_parens (hf.isNameChar List.mem_cons_self hc)) depth rest
  | unary op f ih =>
    cases hf.op_eq
    rw [infixChars_neg, List.cons_append, isBalanced_cons (by decide) (by decide)]
    rcases enclose_eq f.isLeaf f.infixChars with henclose | henclose
    · rw [henclose]
      exact ih hf.of_neg depth rest
    · rw [henclose, List.cons_append, List.append_assoc]
      exact isBalanced_group (ih hf.of_neg) depth rest
  | binary op f g ihf ihg =>
    obtain ⟨hop, hleft, hright⟩ := hf.of_binary
    rw [infixChars_eq_group hop, List.cons_append, List.append_assoc]
    exact isBalanced_group (isBalanced_core_binary hop (ihf hleft) (ihg hright)) depth rest

theorem isTrimmed_enclose (leaf : Bool) {cs : List Char} (h : Text.IsTrimmed cs) :
    Text.IsTrimmed (Formula.enclose leaf cs) := by
  rcases enclose_eq leaf cs with henclose | henclose
  · rwa [henclose]
  · rw [henclose]
    exact Text.isTrimmed_cons_concat (by decide) (by decide) cs

theorem isTrimmed_infixChars (hf : IsGuard f) : Text.IsTrimmed f.infixChars := by
  induction f with
  | const b => cases b <;> decide
  | atom a => exact (hf.isWord List.mem_cons_self).isTrimmed
  | unary op f ih =>
    cases hf.op_eq
    rw [infixChars_neg]
    exact .cons (by decide) (isTrimmed_enclose f.isLeaf (ih hf.of_neg))
  | binary op f g ihf ihg =>
    rw [infixChars_eq_group hf.of_binary.1]
    exact Text.isTrimmed_cons_concat (by decide) (by decide) _

/-- Only the form of a binary operator starts with a parenthesis. -/
theorem core_cases (hf : IsGuard f) :
    (∃ op l r, f = .binary op l r) ∨
      core f = f.infixChars ∧ ∃ c cs, f.infixChars = c :: cs ∧ c ≠ '(' := by
  cases f with
  | const b => cases b <;> exact .inr ⟨rfl, _, _, rfl, by decide⟩
  | atom a =>
    cases hchars : a.toList with
    | nil => exact absurd hchars (hf.isWord List.mem_cons_self).ne_nil
    | cons c cs =>
      refine .inr ⟨rfl, c, cs, hchars, (ne_parens (hf.isNameChar List.mem_cons_self ?_)).1⟩
      rw [hchars]
      exact List.mem_cons_self
  | unary op f =>
    cases hf.op_eq
    exact .inr ⟨rfl, '!', _, infixChars_neg f, by decide⟩
  | binary op l r => exact .inl ⟨op, l, r, rfl⟩

theorem isBalanced_core (hf : IsGuard f) (depth : Nat) (rest : List Char) :
    isBalanced depth (core f ++ rest) = isBalanced depth rest := by
  rcases core_cases hf with ⟨op, l, r, rfl⟩ | ⟨hcore, -⟩
  · obtain ⟨hop, hleft, hright⟩ := hf.of_binary
    exact isBalanced_core_binary hop (isBalanced_infixChars hleft) (isBalanced_infixChars hright)
      depth rest
  · rw [hcore]
    exact isBalanced_infixChars hf depth rest

theorem isTrimmed_core (hf : IsGuard f) : Text.IsTrimmed (core f) := by
  rcases core_cases hf with ⟨op, l, r, rfl⟩ | ⟨hcore, -⟩
  · obtain ⟨-, hleft, hright⟩ := hf.of_binary
    have h := (isTrimmed_infixChars hleft).append (isTrimmed_infixChars hright)
      (' ' :: (op.sign.toList ++ [' ']))
    simpa [core] using h
  · rw [hcore]
    exact isTrimmed_infixChars hf

theorem stripParens_eq (cs : List Char) :
    stripParens cs =
      match inside? cs with
      | some inner => stripParens (Text.trim inner)
      | none => cs := by
  rw [stripParens]
  split <;> simp_all

theorem stripParens_group {cs : List Char} (hbalanced : isBalanced 0 cs = true) :
    stripParens ('(' :: (cs ++ [')'])) = stripParens (Text.trim cs) := by
  have hinside : inside? ('(' :: (cs ++ [')'])) = some cs := by
    simp [inside?, hbalanced]
  rw [stripParens_eq, hinside]

theorem inside?_eq_none {c : Char} (hc : c ≠ '(') (cs : List Char) : inside? (c :: cs) = none := by
  unfold inside?
  split
  · next heq => exact absurd (List.cons.inj heq).1 hc
  · rfl

/-- A parenthesis that is closed before the end does not enclose the whole text. -/
theorem inside?_group_append {cs rest : List Char} (hne : rest ≠ [])
    (h : ∀ depth rest, isBalanced depth (cs ++ rest) = isBalanced depth rest) :
    inside? ('(' :: (cs ++ ')' :: rest)) = none := by
  have hlast : (cs ++ ')' :: rest).dropLast = cs ++ ')' :: rest.dropLast := by
    rw [List.dropLast_append_of_ne_nil (List.cons_ne_nil _ _), List.dropLast_cons_of_ne_nil hne]
  have hopen : isBalanced 0 (cs ++ ')' :: rest.dropLast) = false := by
    rw [h]
    rfl
  simp [inside?, hlast, hopen]

theorem inside?_core (hf : IsGuard f) : inside? (core f) = none := by
  rcases core_cases hf with ⟨op, l, r, rfl⟩ | ⟨hcore, c, cs, hchars, hc⟩
  · obtain ⟨-, hleft, -⟩ := hf.of_binary
    rcases core_cases hleft with ⟨op', l', r', rfl⟩ | ⟨-, c, cs, hchars, hc⟩
    · rw [core, infixChars_eq_group hleft.of_binary.1, List.cons_append, List.append_assoc]
      exact inside?_group_append (List.cons_ne_nil _ _) (isBalanced_core hleft)
    · rw [core, hchars]
      exact inside?_eq_none hc _
  · rw [hcore, hchars]
    exact inside?_eq_none hc cs

/-- All enclosing parentheses are removed, and no others. -/
theorem stripParens_infixChars (hf : IsGuard f) : stripParens f.infixChars = core f := by
  have hstop : stripParens (core f) = core f := by rw [stripParens_eq, inside?_core hf]
  rcases core_cases hf with ⟨op, l, r, rfl⟩ | ⟨hcore, -⟩
  · have hbalanced := isBalanced_core hf 0 []
    rw [List.append_nil] at hbalanced
    rw [infixChars_eq_group hf.of_binary.1, stripParens_group hbalanced,
      (isTrimmed_core hf).trim_eq, hstop]
  · rw [← hcore, hstop]

/-! ## The Polish reading of the other form -/

/-- A sign in front of a word makes an atom of it. -/
theorem ofWord_sign_cons {c : Char} (hc : c = '!' ∨ c = '(') {w : List Char} (hw : w ≠ []) :
    Formula.Meaning.ofWord (String.ofList (c :: w)) = .atom := by
  generalize hword : String.ofList (c :: w) = word
  have hchars : word.toList = c :: w := by rw [← hword, String.toList_ofList]
  unfold Formula.Meaning.ofWord
  split <;> first
    | rfl
    | (rcases hc with rfl | rfl <;> simp_all)

/-- Nothing may follow a complete formula. -/
theorem ofWords_cons_cons {w : String}
    (hw : Formula.Meaning.ofWord w = .atom ∨ ∃ b, Formula.Meaning.ofWord w = .const b) (v : String)
    (more : List String) :
    Formula.ofWords (w :: v :: more) = .error (.trailingToken (toSymbol v)) := by
  rcases hw with hw | ⟨b, hw⟩ <;>
    simp only [Formula.ofWords, Formula.read, Formula.readFrom, nameOf_string, hw, Formula.resume]

/-- The first word behind a sign, which it makes longer. -/
theorem exists_words_sign_cons {c : Char} (hc : c = '!' ∨ c = '(') {cs : List Char}
    (hcs : Text.IsTrimmed cs) : ∃ w more, Text.words (c :: cs) = (c :: w) :: more ∧
      Formula.Meaning.ofWord (String.ofList (c :: w)) = .atom := by
  obtain ⟨d, rest, rfl, hd⟩ := hcs.exists_cons
  have hblank : Text.isBlank c = false := by rcases hc with rfl | rfl <;> decide
  obtain ⟨w, more, hrest, hword⟩ := Text.words_cons_cons hblank hd rest
  have hw := (Text.isWord_of_mem_words (hrest ▸ List.mem_cons_self)).1
  exact ⟨w, more, hword, ofWord_sign_cons hc hw.ne_nil⟩

/-- The form with operators between operands starts with a word that is no operator. -/
theorem exists_words_infixChars (hf : IsGuard f) :
    ∃ w more, Text.words f.infixChars = w :: more ∧
      (Formula.Meaning.ofWord (String.ofList w) = .atom ∨
        ∃ b, Formula.Meaning.ofWord (String.ofList w) = .const b) := by
  cases f with
  | const b =>
    cases b with
    | false => exact ⟨_, [], Text.words_of_isWord (by decide), .inr ⟨false, by decide⟩⟩
    | true => exact ⟨_, [], Text.words_of_isWord (by decide), .inr ⟨true, by decide⟩⟩
  | atom a =>
    refine ⟨a.toList, [], Text.words_of_isWord (hf.isWord List.mem_cons_self), .inl ?_⟩
    rw [String.ofList_toList]
    exact hf.namesAtoms a List.mem_cons_self
  | unary op f =>
    cases hf.op_eq
    obtain ⟨w, more, hwords, hmeaning⟩ := exists_words_sign_cons (.inl rfl)
      (isTrimmed_enclose f.isLeaf (isTrimmed_infixChars hf.of_neg))
    exact ⟨_, more, hwords, .inl hmeaning⟩
  | binary op f g =>
    have htrimmed := (isTrimmed_core hf).append (by decide : Text.IsTrimmed [')']) []
    rw [List.append_nil] at htrimmed
    obtain ⟨w, more, hwords, hmeaning⟩ := exists_words_sign_cons (.inr rfl) htrimmed
    rw [infixChars_eq_group hf.of_binary.1]
    exact ⟨_, more, hwords, .inl hmeaning⟩

theorem polish?_eq_some (hf : IsGuard f) {text : String} (h : Formula.ofText text = .ok f) :
    polish? text = some f := by
  have hnames : f.atoms.all (fun a => a.toList.all Text.isNameChar) = true := by
    simp only [List.all_eq_true]
    exact fun a ha c hc => hf.isNameChar ha hc
  rw [polish?, h]
  simp only [hnames, hf.isPropositional, Bool.and_self, if_true]

/-- Read as a Polish form, the other form is the formula or nothing. -/
theorem polish?_core (hf : IsGuard f) :
    polish? (String.ofList (core f)) = some f ∨ polish? (String.ofList (core f)) = none := by
  cases f with
  | const b =>
    refine .inl (polish?_eq_some hf ?_)
    rw [← Formula.ofText_polish hf.namesAtoms fun a ha => hf.isWord ha]
    cases b <;> rfl
  | atom a =>
    refine .inl (polish?_eq_some hf ?_)
    rw [← Formula.ofText_polish hf.namesAtoms fun a ha => hf.isWord ha]
    simp [core, infixChars_atom, Formula.polish, Formula.words]
  | unary op f =>
    cases hf.op_eq
    refine .inr ?_
    obtain ⟨w, more, hwords, hmeaning⟩ := exists_words_sign_cons (.inl rfl)
      (isTrimmed_enclose f.isLeaf (isTrimmed_infixChars hf.of_neg))
    rw [polish?, Formula.ofText, Text.wordsOf, core, infixChars_neg, String.toList_ofList, hwords]
    · cases more with
      | nil =>
        -- The only word is no name.
        have hword : Formula.ofWords [String.ofList ('!' :: w)] =
            .ok (.atom (String.ofList ('!' :: w))) :=
          Formula.ofWords_words (f := .atom _) fun a ha => List.mem_singleton.mp ha ▸ hmeaning
        have hsign : Text.isNameChar '!' = false := by decide +kernel
        rw [List.map_singleton, hword]
        simp [Formula.atoms, hsign]
      | cons v more =>
        rw [List.map_cons, List.map_cons, ofWords_cons_cons (.inl hmeaning)]
    · simp
  | binary op f g =>
    refine .inr ?_
    obtain ⟨hop, hleft, -⟩ := hf.of_binary
    obtain ⟨w, more, hwords, hmeaning⟩ := exists_words_infixChars hleft
    have hsign : Text.IsWord op.sign.toList := by rcases hop with rfl | rfl <;> decide
    -- The operator follows the first operand.
    obtain ⟨v, rest, hrest⟩ := List.exists_cons_of_ne_nil
      (List.append_ne_nil_of_right_ne_nil more (List.cons_ne_nil op.sign.toList
        (Text.words g.infixChars)))
    rw [polish?, Formula.ofText, Text.wordsOf, core, String.toList_ofList,
      Text.words_append_cons _ (by decide), hwords, Text.words_append_cons _ (by decide),
      Text.words_of_isWord hsign, List.cons_append, List.singleton_append, hrest, List.map_cons,
      List.map_cons, ofWords_cons_cons hmeaning]

/-! ## Reading the form without parentheses -/

theorem ofTokens_eq_ok {tokens : List Token} (h : readFrom guard [] none tokens = .ok f) :
    ofTokens guard tokens = .ok f := by
  cases tokens with
  | nil => cases h
  | cons token rest => exact h

/-- Without the enclosing parentheses, the form is read between its operands. -/
theorem ofTokens_core (hf : IsGuard f) : ofTokens guard (tokens (core f)) = .ok f := by
  have hnil : Delimits [] := fun _ hc => by cases hc
  apply ofTokens_eq_ok
  rcases core_cases hf with ⟨op, l, r, rfl⟩ | ⟨hcore, -⟩
  · obtain ⟨hop, hleft, hright⟩ := hf.of_binary
    have hread := readFrom_infixChars guard hleft []
      (delimits_space (op.sign.toList ++ ' ' :: r.infixChars))
    rcases hop with rfl | rfl
    · have hright := readFrom_infixChars guard hright [.and l] hnil
      rw [List.append_nil, ← tokensAfter_space] at hright
      rw [tokensAfter_space] at hread
      exact hread.trans hright
    · have hright := readFrom_infixChars guard hright [.or l] hnil
      rw [List.append_nil, ← tokensAfter_space] at hright
      rw [tokensAfter_space] at hread
      exact hread.trans hright
  · have hread := readFrom_infixChars guard hf [] hnil
    rw [List.append_nil, ← hcore] at hread
    exact hread

/-! ## The characters of a guard -/

/-- The words of a guard have no parentheses. -/
theorem of_mem_words (hf : IsGuard f) {w : String} (hw : w ∈ f.words) {c : Char}
    (hc : c ∈ w.toList) : Text.isNameChar c = true ∨ c ∈ ['!', '&', '|'] := by
  induction f with
  | const b =>
    have hword : w.toList = (Formula.const (α := String) b).infixChars := by
      cases b <;> exact congrArg String.toList (List.mem_singleton.mp hw)
    exact .inl (isNameChar_of_mem_const b c (hword ▸ hc))
  | atom a =>
    rw [List.mem_singleton.mp hw] at hc
    exact .inl (hf.isNameChar List.mem_cons_self hc)
  | unary op f ih =>
    cases hf.op_eq
    rcases List.mem_cons.mp hw with rfl | hw
    · exact .inr ((by decide : "!".toList ⊆ ['!', '&', '|']) hc)
    · exact ih hf.of_neg hw
  | binary op f g ihf ihg =>
    obtain ⟨hop, hleft, hright⟩ := hf.of_binary
    rcases List.mem_cons.mp hw with rfl | hw
    · have hsign : op.sign.toList ⊆ ['!', '&', '|'] := by rcases hop with rfl | rfl <;> decide
      exact .inr (hsign hc)
    · exact (List.mem_append.mp hw).elim (ihf hleft) (ihg hright)

theorem of_mem_polish (hf : IsGuard f) {c : Char} (hc : c ∈ f.polish.toList) :
    Text.isNameChar c = true ∨ c ∈ [' ', '!', '&', '|'] := by
  rcases Text.mem_toList_intercalate hc with rfl | ⟨w, hw, hc⟩
  · exact .inr List.mem_cons_self
  · exact (of_mem_words hf hw hc).imp_right fun h => List.mem_cons_of_mem _ h

theorem of_mem_infixChars (hf : IsGuard f) {c : Char} (hc : c ∈ f.infixChars) :
    Text.isNameChar c = true ∨ c ∈ [' ', '!', '&', '|', '(', ')'] := by
  induction f with
  | const b => exact .inl (isNameChar_of_mem_const b c hc)
  | atom a => exact .inl (hf.isNameChar List.mem_cons_self hc)
  | unary op f ih =>
    cases hf.op_eq
    rw [infixChars_neg, List.mem_cons] at hc
    rcases hc with rfl | hc
    · exact .inr (by decide)
    · rcases mem_enclose hc with hparen | hc
      · exact .inr (List.mem_append_right [' ', '!', '&', '|'] hparen)
      · exact ih hf.of_neg hc
  | binary op f g ihf ihg =>
    obtain ⟨hop, hleft, hright⟩ := hf.of_binary
    have hsign : op.sign.toList ⊆ [' ', '!', '&', '|', '(', ')'] := by
      rcases hop with rfl | rfl <;> decide
    rw [infixChars_eq_group hop, List.mem_cons, List.mem_append, core, List.mem_append,
      List.mem_cons, List.mem_append, List.mem_cons] at hc
    rcases hc with rfl | (hc | rfl | hc | rfl | hc) | hc
    · exact .inr (by decide)
    · exact ihf hleft hc
    · exact .inr (by decide)
    · exact .inr (hsign hc)
    · exact .inr (by decide)
    · exact ihg hright hc
    · rw [List.mem_singleton.mp hc]
      exact .inr (by decide)

end Guard

end PlanConstraints

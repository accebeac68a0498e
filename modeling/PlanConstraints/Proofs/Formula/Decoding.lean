import PlanConstraints.Proofs.Formula.Polish

set_option autoImplicit false

/-!
# What the Polish form is read from

The words that were taken to read a formula are its words, up to digits for constants, and the atoms
were noted in the order of these words (`exists_taken`).  So the Polish form is read without
ambiguity, whatever follows, and nothing else is read (`read_words`).
-/

namespace PlanConstraints

namespace Formula

variable {α : Type}

/-! ## What waits -/

/-- The atoms of the operand that an operator has while it waits. -/
def Pending.atoms : Pending α → List α
  | .unary _ _ | .first _ _ => []
  | .second _ _ f => f.atoms

/-- The atoms of the operands that have been read. -/
def stackAtoms (stack : List (Pending α)) : List α := stack.reverse.flatMap Pending.atoms

@[simp] theorem stackAtoms_cons (pending : Pending α) (stack : List (Pending α)) :
    stackAtoms (pending :: stack) = stackAtoms stack ++ pending.atoms := by
  simp [stackAtoms]

/-- A complete operand adds its atoms to those of what waits. -/
theorem atoms_resume (f : Formula α) (stack : List (Pending α)) :
    (resume f stack).elim atoms stackAtoms = stackAtoms stack ++ f.atoms := by
  induction stack generalizing f with
  | nil => rfl
  | cons pending stack ih =>
    cases pending with
    | unary word op =>
      rw [resume, ih, atoms, stackAtoms_cons, Pending.atoms, List.append_nil]
    | first word op => simp [resume, Pending.atoms]
    | second word op g =>
      rw [resume, ih, atoms, stackAtoms_cons, Pending.atoms, List.append_assoc]

variable [Named α]

/-- The words of an operator that waits, with those of the operand that it has. -/
def Pending.words : Pending α → List String
  | .unary _ op => [op.sign]
  | .first _ op => [op.sign]
  | .second _ op f => op.sign :: f.words

/-- The words of the operators that wait, the innermost one last. -/
def stackWords (stack : List (Pending α)) : List String := stack.reverse.flatMap Pending.words

@[simp] theorem stackWords_cons (pending : Pending α) (stack : List (Pending α)) :
    stackWords (pending :: stack) = stackWords stack ++ pending.words := by
  simp [stackWords]

/-- A complete operand adds its words to those of what waits. -/
theorem words_resume (f : Formula α) (stack : List (Pending α)) :
    (resume f stack).elim words stackWords = stackWords stack ++ f.words := by
  induction stack generalizing f with
  | nil => rfl
  | cons pending stack ih =>
    cases pending with
    | unary word op =>
      rw [resume, ih, words, stackWords_cons, Pending.words]
      simp
    | first word op => simp [resume, Pending.words]
    | second word op g =>
      rw [resume, ih, words, stackWords_cons, Pending.words]
      simp

/-! ## What is taken -/

/-- The words that stand for atoms. -/
def atomWords (words : List α) : List α := words.filter fun w => Meaning.ofWord (nameOf w) = .atom

theorem atomWords_subset (words : List α) : atomWords words ⊆ words := fun _ hw =>
  (List.mem_filter.mp hw).1

theorem atomWords_cons (word : α) (words : List α) :
    atomWords (word :: words) = atomWords [word] ++ atomWords words :=
  List.filter_append [word] words

theorem ofWord_of_mem_atomWords {words : List α} {a : α} (h : a ∈ atomWords words) :
    Meaning.ofWord (nameOf a) = .atom := of_decide_eq_true (List.mem_filter.mp h).2

/-- The words `front` are taken to complete the operators that wait: with the words of these they
are the words of the formula, and its atoms are noted on the way. -/
structure Completes (stack : List (Pending α)) (seen front : List α) (r : Reading α) : Prop where
  words : stackWords stack ++ front.map (fun w => spelledOut (nameOf w)) = r.formula.words
  atoms : stackAtoms stack ++ atomWords front = r.formula.atoms
  constants : r.constants = (atomWords front).foldl noteAtom seen

variable {stack : List (Pending α)} {seen : List α} {word : α} {rest : List α} {r : Reading α}

/-- An operator is taken before its operands. -/
theorem Completes.cons {pending : Pending α} {front : List α}
    (hwords : pending.words = [spelledOut (nameOf word)])
    (hatoms : pending.atoms = []) (hword : atomWords [word] = [])
    (h : Completes (pending :: stack) seen front r) : Completes stack seen (word :: front) r where
  words := by
    rw [← h.words, stackWords_cons, hwords, List.append_assoc]
    rfl
  atoms := by rw [← h.atoms, atomWords_cons, hword, stackAtoms_cons, hatoms, List.append_nil]; rfl
  constants := by
    rw [h.constants, atomWords_cons, hword]
    rfl

/-- The operator for which a word stands is written with it. -/
theorem spelledOut_of_unary {word : String} {op : UnaryOp} (h : Meaning.ofWord word = .unary op) :
    spelledOut word = op.sign := by
  unfold Meaning.ofWord at h
  split at h <;> cases h <;> rfl

theorem spelledOut_of_binary {word : String} {op : BinaryOp}
    (h : Meaning.ofWord word = .binary op) : spelledOut word = op.sign := by
  unfold Meaning.ofWord at h
  split at h <;> cases h <;> rfl

theorem words_const {word : String} {value : Bool} (h : Meaning.ofWord word = .const value) :
    (const value : Formula α).words = [spelledOut word] := by
  unfold Meaning.ofWord at h
  split at h <;> cases h <;> rfl

theorem atomWords_of_ne (h : Meaning.ofWord (nameOf word) ≠ .atom) : atomWords [word] = [] := by
  simp [atomWords, h]

/-- A word that is an operand goes to the operators that wait. -/
theorem exists_taken_of_operand {f : Formula α} {seen' : List α}
    (hrest : ∀ {stack : List (Pending α)} {seen : List α}, readFrom stack seen rest = .ok r →
      ∃ front, rest = front ++ r.rest ∧ Completes stack seen front r)
    (hwords : f.words = [spelledOut (nameOf word)]) (hatoms : f.atoms = atomWords [word])
    (hseen : seen' = (atomWords [word]).foldl noteAtom seen)
    (h : (match resume f stack with
      | .inl formula => (.ok ⟨formula, rest, seen'⟩ : Except FormulaError (Reading α))
      | .inr stack => readFrom stack seen' rest) = .ok r) :
    ∃ front, word :: rest = front ++ r.rest ∧ Completes stack seen front r := by
  have hresumed := words_resume f stack
  have hnoted := atoms_resume f stack
  split at h
  · next formula heq =>
    cases h
    rw [heq] at hresumed hnoted
    refine ⟨[word], rfl, ?_, ?_, hseen⟩
    · exact (hwords ▸ hresumed).symm
    · exact (hatoms ▸ hnoted).symm
  · next stack' heq =>
    rw [heq] at hresumed hnoted
    obtain ⟨front, rfl, htaken⟩ := hrest h
    refine ⟨word :: front, rfl, ?_, ?_, ?_⟩
    · have hstack : stackWords stack' = stackWords stack ++ f.words := hresumed
      rw [← htaken.words, hstack, hwords, List.append_assoc]
      rfl
    · have hstack : stackAtoms stack' = stackAtoms stack ++ f.atoms := hnoted
      rw [← htaken.atoms, hstack, hatoms, atomWords_cons, List.append_assoc]
    · rw [htaken.constants, hseen, atomWords_cons word front, List.foldl_append]

/-- Reading takes the words in front of the rest. -/
theorem exists_taken {ws : List α} (h : readFrom stack seen ws = .ok r) :
    ∃ front, ws = front ++ r.rest ∧ Completes stack seen front r := by
  induction ws generalizing stack seen with
  | nil =>
    unfold readFrom at h
    split at h <;> cases h
  | cons word rest ih =>
    rw [readFrom] at h
    split at h
    · next op hop =>
      obtain ⟨front, rfl, htaken⟩ := ih h
      exact ⟨word :: front, rfl, htaken.cons (by rw [Pending.words, spelledOut_of_unary hop]) rfl
        (atomWords_of_ne (by rw [hop]; exact Meaning.noConfusion))⟩
    · next op hop =>
      obtain ⟨front, rfl, htaken⟩ := ih h
      exact ⟨word :: front, rfl, htaken.cons (by rw [Pending.words, spelledOut_of_binary hop]) rfl
        (atomWords_of_ne (by rw [hop]; exact Meaning.noConfusion))⟩
    · next value hvalue =>
      have hnone : atomWords [word] = [] :=
        atomWords_of_ne (by rw [hvalue]; exact Meaning.noConfusion)
      exact exists_taken_of_operand ih (words_const hvalue) hnone.symm (by rw [hnone]; rfl) h
    · next hatom =>
      have hone : atomWords [word] = [word] := List.filter_eq_self.mpr
        (List.forall_mem_singleton.mpr (decide_eq_true hatom))
      have hwords : (atom word).words = [spelledOut (nameOf word)] := by
        rw [words, spelledOut_of_ofWord hatom]
      exact exists_taken_of_operand ih hwords hone.symm (by rw [hone]; rfl) h

/-! ## Constants -/

/-- Noting atoms one after the other keeps the first of each name that was not there. -/
theorem foldl_noteAtom (as seen : List α) :
    as.foldl noteAtom seen =
      seen ++ (distinctBy nameOf as).filter fun a => !seen.any fun b => nameOf b = nameOf a := by
  induction as generalizing seen with
  | nil => simp [distinctBy]
  | cons a as ih =>
    rw [List.foldl_cons, ih, distinctBy, List.filter_cons, List.filter_filter, noteAtom]
    cases hseen : seen.any fun b => nameOf b = nameOf a with
    | true =>
      -- every name that is not among the seen ones is another name
      have hother : ∀ b : α, (!seen.any fun c => nameOf c = nameOf b) = true →
          nameOf b ≠ nameOf a := by
        intro b hb heq
        rw [heq, hseen] at hb
        cases hb
      simp only [if_true, Bool.not_true, Bool.false_eq_true, if_false]
      congr 1
      refine List.filter_congr fun b _ => ?_
      cases hb : !seen.any fun c => nameOf c = nameOf b with
      | false => rfl
      | true => simp [hother b hb]
    | false =>
      simp only [Bool.false_eq_true, if_false, Bool.not_false, if_true, List.append_assoc,
        List.singleton_append]
      congr 2
      refine List.filter_congr fun b _ => ?_
      simp [List.any_append, eq_comm, Bool.and_comm]

/-- The atoms of a formula, noted from left to right, are its constants. -/
theorem foldl_noteAtom_atoms (f : Formula α) : f.atoms.foldl noteAtom [] = f.constants := by
  rw [foldl_noteAtom, constants]
  simp

/-- The names of the constants are the constants of the formula with names for atoms. -/
theorem constants_map_nameOf (f : Formula α) :
    (f.map nameOf).constants = f.constants.map nameOf := by
  rw [constants, atoms_map, distinctBy_map, constants]
  rfl

/-- What was read tells the words it was read from. -/
theorem exists_of_read {ws : List α} (h : read ws = .ok r) :
    ∃ front, ws = front ++ r.rest ∧ front.map (fun w => spelledOut (nameOf w)) = r.formula.words ∧
      atomWords front = r.formula.atoms ∧ r.constants = r.formula.constants := by
  obtain ⟨front, hws, htaken⟩ := exists_taken h
  have hatoms : atomWords front = r.formula.atoms := htaken.atoms
  refine ⟨front, hws, htaken.words, hatoms, ?_⟩
  rw [htaken.constants, hatoms, foldl_noteAtom_atoms]

end Formula

/-- The Polish form is read without ambiguity.  The words of a formula whose atoms are no words with
another meaning are read as the formula with its constants, and what follows them is the rest;
where the atoms are words, the words of the formula are those of its text.  Whatever is read spells
its formula, up to digits for constants, and nothing is read exactly if no front part of the words
spells a formula of this kind.

In the first part the hypothesis on atoms bears the load, as a word with a meaning of its own is
read as that.  The other parts have none: they hold of any words. -/
theorem read_words {α : Type} [Named α] :
    (∀ f : Formula String, (∀ a ∈ f.atoms, a ∉ Formula.reservedWords) →
      ((∀ a ∈ f.atoms, Text.IsWord a.toList) → Text.wordsOf f.polish = f.words) ∧
      ∀ front rest : List α, front.map nameOf = f.words →
        ∃ r, Formula.read (front ++ rest) = .ok r ∧ r.formula.map nameOf = f ∧ r.rest = rest ∧
          r.constants.map nameOf = f.constants) ∧
    (∀ (ws : List α) (r : Formula.Reading α), Formula.read ws = .ok r →
      ∃ front, ws = front ++ r.rest ∧
        front.map (fun w => Formula.spelledOut (nameOf w)) = r.formula.words ∧
        (∀ a ∈ r.formula.atoms, nameOf a ∉ Formula.reservedWords) ∧
        r.constants = r.formula.constants) ∧
    ∀ ws : List α, (∃ e, Formula.read ws = .error e) ↔
      ¬ ∃ (f : Formula String) (front rest : List α), (∀ a ∈ f.atoms, a ∉ Formula.reservedWords) ∧
        ws = front ++ rest ∧ front.map (fun w => Formula.spelledOut (nameOf w)) = f.words := by
  have hnames : ∀ f : Formula String, (∀ a ∈ f.atoms, a ∉ Formula.reservedWords) → f.NamesAtoms :=
    fun f hf a ha => Formula.ofWord_eq_atom_iff.mpr (hf a ha)
  refine ⟨fun f hf => ⟨fun hwords => ?_, fun front rest hfront => ?_⟩, fun ws r h => ?_,
    fun ws => ⟨?_, fun h => ?_⟩⟩
  · exact Text.wordsOf_intercalate fun w hw => Formula.isWord_of_mem_words hwords hw
  · have hspelled := Formula.map_spelledOut_nameOf (hnames f hf) hfront
    obtain ⟨g, rfl, hread⟩ := Formula.exists_read (hnames f hf) hspelled rest
    refine ⟨_, hread, rfl, rfl, ?_⟩
    rw [Formula.foldl_noteAtom_atoms, Formula.constants_map_nameOf]
  · obtain ⟨front, hws, hfront, hatoms, hconstants⟩ := Formula.exists_of_read h
    refine ⟨front, hws, hfront, fun a ha => ?_, hconstants⟩
    rw [← hatoms] at ha
    exact Formula.ofWord_eq_atom_iff.mp (Formula.ofWord_of_mem_atomWords ha)
  · rintro ⟨e, he⟩ ⟨f, front, rest, hf, rfl, hfront⟩
    obtain ⟨g, -, hread⟩ := Formula.exists_read (hnames f hf) hfront rest
    rw [he] at hread
    cases hread
  · cases hread : Formula.read ws with
    | error e => exact ⟨e, rfl⟩
    | ok r =>
      -- the words that were taken spell the formula with names for atoms
      obtain ⟨front, hws, hfront, hatoms, -⟩ := Formula.exists_of_read hread
      refine absurd ⟨r.formula.map nameOf, front, r.rest, fun a ha => ?_, hws, ?_⟩ h
      · rw [Formula.atoms_map] at ha
        obtain ⟨b, hb, rfl⟩ := List.mem_map.mp ha
        rw [← hatoms] at hb
        exact Formula.ofWord_eq_atom_iff.mp (Formula.ofWord_of_mem_atomWords hb)
      · rw [Formula.words_map_nameOf, hfront]

/-- A formula with a word behind it, and an operator without its second operand. -/
theorem read_words_until :
    (∃ r, Formula.read (["U", "a", "||", "true", "b"] ++ ["c"]) = .ok r ∧
      r.formula.map nameOf = .binary .strongUntil (.atom "a") (.or (.const true) (.atom "b")) ∧
      r.rest = ["c"] ∧ r.constants.map nameOf = ["a", "b"]) ∧
    ¬ ∃ (f : Formula String) (front rest : List String),
      (∀ a ∈ f.atoms, a ∉ Formula.reservedWords) ∧ ["&&", "a"] = front ++ rest ∧
        front.map (fun w => Formula.spelledOut (nameOf w)) = f.words := by
  obtain ⟨hreads, -, hfails⟩ := read_words (α := String)
  exact ⟨(hreads _ (by decide)).2 _ _ rfl, (hfails _).mp ⟨_, rfl⟩⟩

end PlanConstraints

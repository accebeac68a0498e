import PlanConstraints.Formula.Polish
import PlanConstraints.Proofs.Text.Words

set_option autoImplicit false

/-!
# Reading the Polish form

The Polish form of a formula is read as the formula (`ofText_polish`), as long as the names of its
atoms are words that mean nothing else.
-/

namespace PlanConstraints

namespace Formula

variable {α : Type}

/-! ## Words -/

@[simp] theorem ofWord_sign_unary (op : UnaryOp) : Meaning.ofWord op.sign = .unary op := by
  cases op <;> decide

@[simp] theorem ofWord_sign_binary (op : BinaryOp) : Meaning.ofWord op.sign = .binary op := by
  cases op <;> decide

/-- The words that mean something else than an atom. -/
def reservedWords : List String :=
  ["!", "<>", "[]", "X", "&&", "||", "U", "W", "true", "1", "false", "0"]

/-- All other words stand for atoms. -/
theorem ofWord_eq_atom_iff {word : String} :
    Meaning.ofWord word = .atom ↔ word ∉ reservedWords := by
  constructor
  · intro h hmem
    have hreserved : ∀ w ∈ reservedWords, Meaning.ofWord w ≠ .atom := by decide
    exact hreserved word hmem h
  · intro h
    simp only [reservedWords, List.mem_cons, List.not_mem_nil, or_false, not_or] at h
    unfold Meaning.ofWord
    split <;> simp_all

/-- The word with a digit for a constant spelled out. -/
def spelledOut (word : String) : String :=
  match word with
  | "1" => "true"
  | "0" => "false"
  | _ => word

theorem spelledOut_eq_self {word : String} (h : word ≠ "1") (h' : word ≠ "0") :
    spelledOut word = word := by
  unfold spelledOut
  split
  · exact absurd rfl h
  · exact absurd rfl h'
  · rfl

/-- Spelling a word out does not change its meaning. -/
@[simp] theorem ofWord_spelledOut (word : String) :
    Meaning.ofWord (spelledOut word) = Meaning.ofWord word := by
  unfold spelledOut
  split <;> rfl

/-- A word for an atom is spelled as it is. -/
theorem spelledOut_of_ofWord {word : String} (h : Meaning.ofWord word = .atom) :
    spelledOut word = word := by
  have hnot := ofWord_eq_atom_iff.mp h
  refine spelledOut_eq_self ?_ ?_
  · rintro rfl
    exact hnot (by decide)
  · rintro rfl
    exact hnot (by decide)

/-- The names of all atoms stand for atoms. -/
def NamesAtoms (f : Formula String) : Prop := ∀ a ∈ f.atoms, Meaning.ofWord a = .atom

/-- The words of a formula have no digits for constants. -/
theorem map_spelledOut_words {f : Formula String} (hf : f.NamesAtoms) :
    f.words.map spelledOut = f.words := by
  induction f with
  | const b => cases b <;> rfl
  | atom a =>
    have ha := spelledOut_of_ofWord (hf a (List.mem_singleton_self a))
    exact congrArg (fun w => [w]) ha
  | unary op f ih =>
    have hsign : spelledOut op.sign = op.sign := by cases op <;> rfl
    rw [words, List.map_cons, hsign, ih hf]
  | binary op f g ihf ihg =>
    obtain ⟨hleft, hright⟩ := List.forall_mem_append.mp hf
    have hsign : spelledOut op.sign = op.sign := by cases op <;> rfl
    rw [words, List.map_cons, List.map_append, hsign, ihf hleft, ihg hright]

/-- Words that spell a formula, with digits or without, are read as one operand.  The words may be
read from somewhere: then the atoms that are read remember it, and only their names are those of the
formula. -/
theorem readFrom_words [Named α] {f : Formula String} (hf : f.NamesAtoms) {ws : List α}
    (hws : ws.map (fun w => spelledOut (nameOf w)) = f.words) :
    ∃ g : Formula α, g.map nameOf = f ∧ ∀ stack seen rest, readFrom stack seen (ws ++ rest) =
        match resume g stack with
        | .inl formula => .ok ⟨formula, rest, g.atoms.foldl noteAtom seen⟩
        | .inr stack => readFrom stack (g.atoms.foldl noteAtom seen) rest := by
  induction f generalizing ws with
  | const b =>
    have hword : ∃ word, (const b : Formula String).words = [word] ∧
        Meaning.ofWord word = .const b := by
      cases b
      · exact ⟨"false", rfl, by decide⟩
      · exact ⟨"true", rfl, by decide⟩
    obtain ⟨word, hwords, hmeaning⟩ := hword
    rw [hwords] at hws
    obtain ⟨w, rfl, rfl⟩ := List.map_eq_singleton_iff.mp hws
    rw [ofWord_spelledOut] at hmeaning
    refine ⟨.const b, rfl, fun stack seen rest => ?_⟩
    simp only [List.singleton_append, readFrom, hmeaning]
    cases resume (.const b) stack <;> rfl
  | atom a =>
    obtain ⟨w, rfl, hw⟩ := List.map_eq_singleton_iff.mp hws
    have ha : Meaning.ofWord (nameOf w) = .atom := by
      rw [← ofWord_spelledOut, hw]
      exact hf a List.mem_cons_self
    rw [spelledOut_of_ofWord ha] at hw
    refine ⟨.atom w, by rw [map, hw]; rfl, fun stack seen rest => ?_⟩
    simp only [List.singleton_append, readFrom, ha]
    cases resume (.atom w) stack <;> rfl
  | unary op f ih =>
    obtain ⟨w, ws, rfl, hw, hws⟩ := List.map_eq_cons_iff.mp hws
    have hop : Meaning.ofWord (nameOf w) = .unary op := by
      rw [← ofWord_spelledOut, hw, ofWord_sign_unary]
    obtain ⟨g, hg, hread⟩ := ih hf hws
    refine ⟨.unary op g, by rw [map, hg], fun stack seen rest => ?_⟩
    simp only [List.cons_append, readFrom, hop, hread]
    rfl
  | binary op f f' ihf ihg =>
    obtain ⟨hleft, hright⟩ := List.forall_mem_append.mp hf
    obtain ⟨w, ws, rfl, hw, hws⟩ := List.map_eq_cons_iff.mp hws
    have hop : Meaning.ofWord (nameOf w) = .binary op := by
      rw [← ofWord_spelledOut, hw, ofWord_sign_binary]
    obtain ⟨ws, ws', rfl, hws, hws'⟩ := List.map_eq_append_iff.mp hws
    obtain ⟨g, hg, hread⟩ := ihf hleft hws
    obtain ⟨g', hg', hread'⟩ := ihg hright hws'
    refine ⟨.binary op g g', by rw [map, hg, hg'], fun stack seen rest => ?_⟩
    simp only [List.cons_append, List.append_assoc, readFrom, hop, hread, resume, hread', atoms,
      List.foldl_append]

/-- Words that spell a formula are read as it, up to what follows. -/
theorem exists_read [Named α] {f : Formula String} (hf : f.NamesAtoms) {ws : List α}
    (hws : ws.map (fun w => spelledOut (nameOf w)) = f.words) (rest : List α) :
    ∃ g : Formula α, g.map nameOf = f ∧
      read (ws ++ rest) = .ok ⟨g, rest, g.atoms.foldl noteAtom []⟩ := by
  obtain ⟨g, hg, hread⟩ := readFrom_words hf hws
  exact ⟨g, hg, hread [] [] rest⟩

/-- The names of words that are the words of a formula spell it. -/
theorem map_spelledOut_nameOf [Named α] {f : Formula String} (hf : f.NamesAtoms) {ws : List α}
    (hws : ws.map nameOf = f.words) : ws.map (fun w => spelledOut (nameOf w)) = f.words := by
  have hspelled := congrArg (List.map spelledOut) hws
  rw [List.map_map, map_spelledOut_words hf] at hspelled
  exact hspelled

/-- A list of words that are the words of a formula reads as one with these names of atoms. -/
theorem exists_ofWords [Named α] {f : Formula String} (hf : f.NamesAtoms) {ws : List α}
    (hws : ws.map nameOf = f.words) : ∃ g : Formula α, ofWords ws = .ok g ∧ g.map nameOf = f := by
  obtain ⟨g, hg, hread⟩ := exists_read hf (map_spelledOut_nameOf hf hws) []
  rw [List.append_nil] at hread
  refine ⟨g, ?_, hg⟩
  rw [ofWords, hread]

theorem map_nameOf (f : Formula String) : f.map nameOf = f := by
  induction f with
  | const b => rfl
  | atom a => rfl
  | unary op f ih => rw [map, ih]
  | binary op f g ihf ihg => rw [map, ihf, ihg]

theorem words_map_nameOf [Named α] (f : Formula α) : (f.map nameOf).words = f.words := by
  induction f with
  | const b => cases b <;> rfl
  | atom a => rfl
  | unary op f ih => rw [map, words, words, ih]
  | binary op f g ihf ihg => rw [map, words, words, ihf, ihg]

theorem ofWords_words {f : Formula String} (hf : f.NamesAtoms) : ofWords f.words = .ok f := by
  have hnames : f.words.map nameOf = f.words := List.map_id _
  obtain ⟨g, hread, hg⟩ := exists_ofWords hf hnames
  rw [map_nameOf] at hg
  rw [hread, hg]

/-! ## Texts -/

theorem isWord_of_mem_words {f : Formula String} (hf : ∀ a ∈ f.atoms, Text.IsWord a.toList)
    {w : String} (hw : w ∈ f.words) : Text.IsWord w.toList := by
  induction f with
  | const b =>
    cases b <;>
    · rw [List.mem_singleton.mp hw]
      decide
  | atom a =>
    rw [List.mem_singleton.mp hw]
    exact hf a List.mem_cons_self
  | unary op f ih =>
    rcases List.mem_cons.mp hw with rfl | hw
    · cases op <;> decide
    · exact ih hf hw
  | binary op f g ihf ihg =>
    rcases List.mem_cons.mp hw with rfl | hw
    · cases op <;> decide
    · rcases List.mem_append.mp hw with hw | hw
      · exact ihf (fun a ha => hf a (List.mem_append_left _ ha)) hw
      · exact ihg (fun a ha => hf a (List.mem_append_right _ ha)) hw

theorem ofText_polish {f : Formula String} (hf : f.NamesAtoms)
    (hwords : ∀ a ∈ f.atoms, Text.IsWord a.toList) : ofText f.polish = .ok f := by
  rw [ofText, polish, Text.wordsOf_intercalate fun w hw => isWord_of_mem_words hwords hw,
    ofWords_words hf]

end Formula

end PlanConstraints

import PlanConstraints.Proofs.Formula.Atoms
import PlanConstraints.Proofs.Property.Reading
import PlanConstraints.Proofs.Text.Lines
import PlanConstraints.Proofs.Text.Numbers

set_option autoImplicit false

/-!
# What a property file without classes declares

Names and atoms are single words, formulas are propositional, and the templates of a set are words
of lines that are neither blank nor comments (`declared_of_read`).  This is what it takes to write
the sets and properties in a file that is read again.  Classes are left out here: their instances
are named by arguments, which may hold white space.
-/

namespace PlanConstraints

/-- Words that make a line which is neither blank nor a comment. -/
structure IsContent (ws : List String) : Prop where
  ne_nil : ws ≠ []
  words : ∀ word ∈ ws, Text.IsWord word.toList
  mark : ws.head?.bind (fun word => word.toList.head?) ≠ some '#'

instance (ws : List String) : Decidable (IsContent ws) :=
  decidable_of_iff (ws ≠ [] ∧ (∀ word ∈ ws, Text.IsWord word.toList) ∧
      ws.head?.bind (fun word => word.toList.head?) ≠ some '#')
    ⟨fun ⟨hne, hwords, hmark⟩ => ⟨hne, hwords, hmark⟩, fun h => ⟨h.ne_nil, h.words, h.mark⟩⟩

/-- Everything that the block declares can be written on lines. -/
structure SetBlock.Declared (b : SetBlock) : Prop where
  name : Text.IsWord b.name.name.toList
  count : b.lines.length < 2 ^ 64
  lines : ∀ line ∈ b.lines, IsContent (line.map Symbol.name)

/-- The name and the atoms are words, and the atoms mean nothing else in a formula. -/
structure Property.Declared (p : Property) : Prop where
  name : Text.IsWord p.name.name.toList
  propositional : p.formula.isPropositional = true
  words : ∀ a ∈ p.formula.atoms, Text.IsWord a.name.toList
  atoms : ∀ a ∈ p.formula.atoms, Formula.Meaning.ofWord a.name = .atom

/-- The action sets have different names and are those that their blocks declare. -/
structure PropertySet.Declared (w : World) (r : PropertySet) : Prop where
  blocks : ∀ s ∈ r.actionSets.sets, s.block.Declared
  sets : ∀ s ∈ r.actionSets.sets, ActionSet.ofBlock w s.block = .ok s
  nodup : r.actionSets.names.Nodup
  properties : ∀ p ∈ r.properties, p.Declared

namespace PropertyFile

/-! ## Lines with words -/

theorem isSkipped_eq_false_iff {line : Line} : isSkipped line = false ↔
    line.isBlank = false ∧ (Text.trim line.text.toList).head? ≠ some '#' := by
  rw [isSkipped, Bool.or_eq_false_iff, beq_eq_false_iff_ne, Piece.chars_trim]
  rfl

/-- A line that is not skipped has words, and they do not start with the mark of comments. -/
theorem isContent_tokens {line : Line} (h : isSkipped line = false) :
    IsContent (line.tokens.map Symbol.name) := by
  obtain ⟨hblank, hmark⟩ := isSkipped_eq_false_iff.mp h
  rw [← Text.head?_wordsOf, ← line.names_tokens] at hmark
  refine ⟨fun hnil => ?_, List.forall_mem_map.mpr fun word => isWord_of_mem_tokens, hmark⟩
  have htrimmed : Text.IsTrimmed (Text.trim line.text.toList) := Text.isTrimmed_trim hblank
  obtain ⟨c, rest, hcons, -⟩ := htrimmed.exists_cons
  have hhead := Text.head?_wordsOf line.text
  rw [← line.names_tokens, hnil, hcons] at hhead
  cases hhead

/-- Words on a line are found again. -/
theorem tokens_of_isContent {line : Line} {ws : List String} (h : IsContent ws)
    (htext : line.text = " ".intercalate ws) :
    isSkipped line = false ∧ line.tokens.map Symbol.name = ws := by
  have hline : IsLine line.text := htext ▸ isLine_intercalate h.ne_nil h.words
  have hwords : Text.wordsOf line.text = ws := htext ▸ Text.wordsOf_intercalate h.words
  refine ⟨isSkipped_eq_false_iff.mpr ⟨hline.trimmed_eq.1, ?_⟩, by rw [line.names_tokens, hwords]⟩
  rw [← Text.head?_wordsOf, hwords]
  exact h.mark

/-- A line is skipped, ends the soft goals or is read for its words. -/
theorem readLine_eq_ok {w : World} {dialect : Dialect} {line : Line} {s s' : State}
    (h : readLine w dialect s line = .ok s') :
    s' = s ∨ (∃ r, s = ⟨r, .softGoals⟩ ∧ s' = ⟨r, .outside⟩) ∨
      isSkipped line = false ∧ readContent w dialect s line = .ok s' := by
  unfold readLine at h
  split at h
  · split at h
    · next hplace =>
      cases h
      obtain ⟨r, place⟩ := s
      cases hplace
      exact .inr (.inl ⟨r, rfl, rfl⟩)
    · cases h
      exact .inl rfl
  · split at h
    · cases h
      exact .inl rfl
    · next hskip => exact .inr (.inr ⟨Bool.eq_false_iff.mpr hskip, h⟩)

theorem readLine_of_not_isSkipped {w : World} {dialect : Dialect} {line : Line} (s : State)
    (h : isSkipped line = false) :
    readLine w dialect s line = readContent w dialect s line := by
  rw [readLine, if_neg (Bool.eq_false_iff.mp (isSkipped_eq_false_iff.mp h).1),
    if_neg (Bool.eq_false_iff.mp h)]

/-! ## Blocks -/

/-- What has been read of the block can be written on lines, and so can what is still to come. -/
def Block.Declared : Block → Prop
  | .set name missing lines => Text.IsWord name.name.toList ∧ 0 < missing ∧
      lines.length + missing < 2 ^ 64 ∧ ∀ line ∈ lines, IsContent (line.map Symbol.name)
  | .property name _ => Text.IsWord name.name.toList

def Item.Declared : Item → Prop
  | .set block => block.Declared
  | .property p => p.Declared

/-- A block that goes on, or what it declares. -/
def DeclaredRead (read : Block ⊕ Item) : Prop := read.elim Block.Declared Item.Declared

/-- What is being read outside of classes can be written on lines. -/
def Place.Declared : Place → Prop
  | .block b => b.Declared
  | _ => True

section

variable {w : World} {line : Line} {r r' : PropertySet}

theorem declared_of_opens {read : Block ⊕ Item} (h : Opens line read) : DeclaredRead read := by
  have hwords : ∀ {words : List Symbol}, line.tokens = words → ∀ word ∈ words,
      Text.IsWord word.name.toList := by
    rintro words rfl word hword
    exact isWord_of_mem_tokens hword
  rcases h with h | ⟨soft, h⟩
  · unfold openSet at h
    split at h
    · next keyword name count htokens =>
      have hname := hwords htokens name (by simp)
      split at h
      · cases h
      · cases h
        exact ⟨hname, Nat.two_pow_pos 64, List.forall_mem_nil _⟩
      · next n hn =>
        cases h
        have hlt := Text.natural?_lt hn
        exact ⟨hname, Nat.succ_pos n, by simpa using hlt, List.forall_mem_nil _⟩
    · cases h
  · unfold openProperty at h
    split at h
    · next keyword name htokens =>
      cases h
      exact hwords htokens name (by simp)
    · cases h

/-- The formula of a line has words of the line for atoms. -/
theorem declared_of_propositionalOfWords {name : Symbol} {soft : Bool} {formula : Formula Symbol}
    (hname : Text.IsWord name.name.toList)
    (h : Formula.propositionalOfWords line.tokens = .ok formula) :
    (⟨name, formula, soft⟩ : Property).Declared := by
  obtain ⟨hread, hprop⟩ := Formula.propositionalOfWords_eq_ok_iff.mp h
  refine ⟨hname, hprop, fun a ha => ?_, fun a ha => ?_⟩
  · exact isWord_of_mem_tokens (Formula.atoms_subset_of_ofWords hread ha)
  · exact of_decide_eq_true (List.mem_filter.mp (Formula.atoms_subset_atomWords hread ha)).2

theorem Block.Declared.readLine {block : Block} (hblock : block.Declared)
    (hskip : isSkipped line = false) {read : Block ⊕ Item}
    (h : block.readLine true line = .ok read) : DeclaredRead read := by
  cases block with
  | set name missing lines =>
    obtain ⟨hname, hpos, hcount, hlines⟩ := hblock
    have hall : ∀ words ∈ lines ++ [line.tokens], IsContent (words.map Symbol.name) :=
      List.forall_mem_append.mpr
        ⟨hlines, List.forall_mem_singleton.mpr (isContent_tokens hskip)⟩
    have hlength : (lines ++ [line.tokens]).length = lines.length + 1 := by simp
    unfold Block.readLine at h
    simp only at h
    split at h
    · cases h
      refine ⟨hname, ?_, hall⟩
      change (lines ++ [line.tokens]).length < 2 ^ 64
      omega
    · cases h
      exact ⟨hname, by omega, by omega, hall⟩
  | property name soft =>
    unfold Block.readLine at h
    simp only [if_true] at h
    split at h
    · cases h
    · next formula hformula =>
      cases h
      exact declared_of_propositionalOfWords hblock hformula

/-- A set of a new name is put behind the others. -/
theorem declared_add (hr : r.Declared w) {block : SetBlock} (hblock : block.Declared)
    {s : ActionSet} (hs : ActionSet.ofBlock w block = .ok s) :
    ({ r with actionSets := (r.actionSets.add s).1 } : PropertySet).Declared w := by
  obtain rfl : s.block = block := by
    unfold ActionSet.ofBlock at hs
    split at hs <;> cases hs
    rfl
  unfold ActionSets.add
  split
  · exact hr
  · next hnew =>
    have hfresh : s.name ∉ r.actionSets.names := by
      intro hmem
      obtain ⟨s', hs', hname⟩ := List.mem_map.mp hmem
      apply hnew
      rw [ActionSets.contains, ActionSets.get?, List.find?_isSome]
      exact ⟨s', hs', decide_eq_true hname⟩
    refine ⟨?_, ?_, ?_, hr.properties⟩
    · exact List.forall_mem_append.mpr ⟨hr.blocks, List.forall_mem_singleton.mpr hblock⟩
    · exact List.forall_mem_append.mpr ⟨hr.sets, List.forall_mem_singleton.mpr hs⟩
    · have hnames : ActionSets.names ⟨r.actionSets.sets ++ [s]⟩ =
          r.actionSets.names ++ [s.name] := List.map_append
      rw [hnames, List.nodup_append]
      refine ⟨hr.nodup, List.pairwise_singleton _ _, fun name hname other hother => ?_⟩
      rw [List.mem_singleton.mp hother]
      rintro rfl
      exact hfresh hname

theorem declared_addItem (hr : r.Declared w) {item : Item} (hitem : item.Declared)
    (h : addItem w .actionSets r item = .ok r') : r'.Declared w := by
  cases item with
  | set block =>
    unfold addItem at h
    simp only at h
    split at h
    · cases h
    · next hadd =>
      cases h
      obtain ⟨s, hs, rfl⟩ := addBlock_eq_ok_iff.mp hadd
      exact declared_add hr hitem hs
  | property p =>
    cases h
    refine { hr with properties := ?_ }
    exact List.forall_mem_append.mpr ⟨hr.properties, List.forall_mem_singleton.mpr hitem⟩

/-! ## Reading -/

/-- What has been read can be written on lines. -/
structure State.Declared (w : World) (s : State) : Prop where
  result : s.result.Declared w
  place : s.place.Declared

theorem declared_continueBlock (hr : r.Declared w) {read : Block ⊕ Item}
    (hread : DeclaredRead read) {s : State}
    (h : continueBlock w .actionSets r read = .ok s) : s.Declared w := by
  unfold continueBlock at h
  split at h
  · cases h
    exact ⟨hr, hread⟩
  · split at h
    · cases h
    · next hadd =>
      cases h
      exact ⟨declared_addItem hr hread hadd, trivial⟩

theorem declared_ofHeader {soft : Bool} {place : Place}
    (h : ClassDraft.ofHeader line soft = .ok place) : place.Declared := by
  unfold ClassDraft.ofHeader at h
  simp only at h
  split at h
  · cases h
  · split at h <;> cases h <;> trivial

/-- The place is in a class of properties. -/
def Place.inClass : Place → Bool
  | .outside | .block _ | .softGoals => false
  | .classHead _ | .classBody _ _ | .instancesHead _ | .instances _ => true

/-- Every line outside of classes keeps this. -/
theorem State.Declared.readLine {s s' : State} (hs : s.Declared w)
    (hfree : s.place.inClass = false) (h : readLine w .actionSets s line = .ok s') :
    s'.Declared w := by
  obtain ⟨hresult, hplace⟩ := hs
  rcases readLine_eq_ok h with rfl | ⟨r, rfl, rfl⟩ | ⟨hskip, h⟩
  · exact ⟨hresult, hplace⟩
  · exact ⟨hresult, trivial⟩
  · obtain ⟨r, place⟩ := s
    unfold readContent at h
    cases place with
    | outside =>
      rcases readOutside_eq_ok h with rfl | ⟨read, hopens, hcontinue⟩ | ⟨soft, place, hheader, rfl⟩
        | rfl
      · exact ⟨hresult, trivial⟩
      · exact declared_continueBlock hresult (declared_of_opens hopens) hcontinue
      · exact ⟨hresult, declared_ofHeader hheader⟩
      · exact ⟨hresult, trivial⟩
    | block block =>
      simp only at h
      split at h
      · cases h
      · next hread =>
        exact declared_continueBlock hresult (Block.Declared.readLine hplace hskip hread) h
    | softGoals =>
      cases h
      exact ⟨{ hresult with }, trivial⟩
    | classHead d => cases hfree
    | classBody d block => cases hfree
    | instancesHead d => cases hfree
    | instances d => cases hfree

/-- No line of the input is read in a class of properties, and none leads into one. -/
def ClassFree (w : World) (input : Input) : Prop :=
  ∀ n s, foldSteps (readLine w .actionSets) ⟨.empty, .outside⟩ (input.lines.take n) = .ok s →
    s.place.inClass = false

/-- The line starts with a word that opens a class outside of blocks. -/
def opensClass (line : Line) : Bool :=
  line.tokens.head?.any fun word =>
    word.name = "propertyclass" || word.name = "soft-propertyclass"

theorem inClass_of_continueBlock {read : Block ⊕ Item} {s : State}
    (h : continueBlock w .actionSets r read = .ok s) : s.place.inClass = false := by
  unfold continueBlock at h
  split at h
  · cases h
    rfl
  · split at h <;> cases h
    rfl

/-- Only such a line leads into a class. -/
theorem inClass_of_readLine {s s' : State} (hs : s.place.inClass = false)
    (hline : opensClass line = false) (h : readLine w .actionSets s line = .ok s') :
    s'.place.inClass = false := by
  rcases readLine_eq_ok h with rfl | ⟨r, rfl, rfl⟩ | ⟨-, h⟩
  · exact hs
  · rfl
  · obtain ⟨r, place⟩ := s
    unfold readContent at h
    cases place with
    | outside =>
      simp only [readOutside] at h
      split at h
      · cases h
        rfl
      · next word words htokens =>
        simp only [opensClass, htokens, List.head?_cons, Option.any_some, Bool.or_eq_false_iff,
          decide_eq_false_iff_not] at hline
        split at h
        · split at h
          · cases h
          · exact inClass_of_continueBlock h
        · split at h
          · cases h
          · exact inClass_of_continueBlock h
        · split at h
          · cases h
          · exact inClass_of_continueBlock h
        · next hname => exact absurd hname hline.1
        · next hname => exact absurd hname hline.2
        · cases h
          rfl
        · cases h
    | block block =>
      simp only at h
      split at h
      · cases h
      · exact inClass_of_continueBlock h
    | softGoals =>
      cases h
      rfl
    | classHead d => cases hs
    | classBody d block => cases hs
    | instancesHead d => cases hs
    | instances d => cases hs

/-- A file is without classes if none of its lines starts with such a word. -/
theorem classFree_of_lines {input : Input} (h : ∀ line ∈ input.lines, opensClass line = false) :
    ClassFree w input := by
  intro n s hs
  exact foldSteps_invariant (fun s => s.place.inClass = false) hs rfl
    fun line hline u u' hu hstep =>
      inClass_of_readLine hu (h line (List.mem_of_mem_take hline)) hstep

/-- Whatever a file without classes declares can be written on lines. -/
theorem declared_of_read {input : Input} {set : PropertySet} (hfree : ClassFree w input)
    (h : read w .actionSets input = .ok set) : set.Declared w := by
  obtain ⟨s, hs, -, rfl⟩ := exists_of_read h
  have hempty : PropertySet.Declared w .empty :=
    ⟨List.forall_mem_nil _, List.forall_mem_nil _, List.nodup_nil, List.forall_mem_nil _⟩
  have hrun := foldSteps_induction
    (motive := fun seen u => foldSteps (readLine w .actionSets) ⟨.empty, .outside⟩ seen = .ok u ∧
      u.Declared w) hs ⟨rfl, hempty, trivial⟩ ?_
  · exact hrun.2.result
  rintro seen line u u' hprefix ⟨hseen, hu⟩ hstep
  refine ⟨by rw [foldSteps_append, hseen]; simp [foldSteps, hstep], hu.readLine ?_ hstep⟩
  have hlines : seen <+: input.lines := (List.prefix_append seen [line]).trans hprefix
  refine hfree seen.length u ?_
  rw [← List.prefix_iff_eq_take.mp hlines, hseen]

end

end PropertyFile

end PlanConstraints

import PlanConstraints.Proofs.ActionSet.Instances
import PlanConstraints.Proofs.Formula.Atoms
import PlanConstraints.Proofs.Property.Reading
import PlanConstraints.Proofs.Text.Lines

set_option autoImplicit false

/-!
# Names in property files

Every name that a property file declares fills a line (`legible_of_read`): names are words of a
line, perhaps with arguments of a class behind them, which are parts of a line without the white
space around them.
-/

namespace PlanConstraints

/-- The names of the property and of its atoms fill lines. -/
structure Property.Legible (p : Property) : Prop where
  name : IsLine p.name.name
  atoms : ∀ a ∈ p.formula.atoms, IsLine a.name

/-- All names that were declared fill lines. -/
structure PropertySet.Legible (s : PropertySet) : Prop where
  sets : ∀ set ∈ s.actionSets.sets, IsLine set.name
  properties : ∀ p ∈ s.properties, p.Legible
  temporal : ∀ p ∈ s.temporal, p.Legible

/-- Arguments behind a name that fills a line. -/
theorem isLine_instanceName {name : String} (hname : IsLine name) {args : List Symbol}
    (hargs : ∀ arg ∈ args, IsLine arg.name) : IsLine (SetBlock.instanceName name args) := by
  induction args using List.reverseRecOn with
  | nil => exact hname
  | append_singleton args arg ih =>
    rw [List.forall_mem_append, List.forall_mem_singleton] at hargs
    rw [SetBlock.instanceName_concat]
    exact (ih hargs.1).append hargs.2 (by decide)

namespace PropertyFile

theorem legible_withSuffix {p : Property} (h : p.Legible) {args : List Symbol}
    (hargs : ∀ arg ∈ args, IsLine arg.name) :
    (p.withSuffix (ClassDraft.suffix args)).Legible where
  name := by
    change IsLine (p.name.name ++ SetBlock.instanceName "" args)
    rw [← SetBlock.instanceName_eq_append]
    exact isLine_instanceName h.name hargs
  atoms a ha := by
    rw [Property.withSuffix, Formula.addSuffix, Formula.atoms_map] at ha
    obtain ⟨b, hb, rfl⟩ := List.mem_map.mp ha
    change IsLine (b.name ++ SetBlock.instanceName "" args)
    rw [← SetBlock.instanceName_eq_append]
    exact isLine_instanceName (h.atoms b hb) hargs

/-! ## Arguments -/

theorem chars_subset_of_mem_splitCommas {input : Input} {start : Nat} {cs : List Char}
    {piece : Piece} (h : piece ∈ splitCommas input start cs) : piece.chars ⊆ cs := by
  induction cs generalizing start piece with
  | nil =>
    rw [List.mem_singleton.mp h]
    exact List.nil_subset _
  | cons c cs ih =>
    rw [splitCommas] at h
    split at h
    · rcases List.mem_cons.mp h with rfl | h
      · exact List.nil_subset _
      · exact List.subset_cons_of_subset c (ih h)
    · split at h
      · rw [List.mem_singleton.mp h]
        exact List.cons_subset_cons c (List.nil_subset _)
      · next first more hsplit =>
        rcases List.mem_cons.mp h with rfl | h
        · exact List.cons_subset_cons c (ih (by rw [hsplit]; exact List.mem_cons_self))
        · exact List.subset_cons_of_subset c (ih (by rw [hsplit]; exact List.mem_cons_of_mem _ h))

theorem isLine_of_mem_commaList {p : Piece} (hbreak : '\n' ∉ p.chars) {a : Symbol}
    (h : a ∈ commaList p) : IsLine a.name := by
  obtain ⟨piece, hpiece, rfl⟩ := List.mem_map.mp h
  obtain ⟨hmem, hblank⟩ := List.mem_filter.mp hpiece
  change IsLine (String.ofList piece.trim.chars)
  rw [piece.chars_trim]
  refine isLine_trim (by simpa [Piece.isBlank] using hblank) fun hc => hbreak ?_
  exact chars_subset_of_mem_splitCommas hmem hc

/-- The arguments of an application stand on its line. -/
theorem isLine_of_mem_args {p : Piece} {app : Application} (h : application? p = some app)
    (hbreak : '\n' ∉ p.chars) : ∀ a ∈ app.args, IsLine a.name := by
  unfold application? at h
  simp only at h
  split at h
  · split at h
    · cases h
      intro a ha
      refine isLine_of_mem_commaList (fun hc => hbreak ?_) ha
      have hinside := List.mem_of_mem_drop (List.takeWhile_subset _ hc)
      rw [Piece.chars_trimLeft] at hinside
      exact List.mem_of_mem_drop ((List.dropWhile_suffix _).subset hinside)
    · cases h
  · cases h

/-! ## Blocks -/

/-- The name of the block fills a line. -/
def Block.Legible : Block → Prop
  | .set name _ _ => IsLine name.name
  | .property name _ => IsLine name.name

/-- What is declared has names that fill lines. -/
def Item.Legible : Item → Prop
  | .set block => IsLine block.name.name
  | .property p => p.Legible

/-- A block that goes on, or what it declares. -/
def LegibleRead (read : Block ⊕ Item) : Prop := read.elim Block.Legible Item.Legible

section

variable {w : World} {dialect : Dialect} {line : Line} {r r' : PropertySet}

theorem legible_of_openSet {words : List Symbol} {read : Block ⊕ Item}
    (h : openSet line words = .ok read) (hwords : ∀ word ∈ words, IsLine word.name) :
    LegibleRead read := by
  unfold openSet at h
  split at h
  · next name count =>
    have hname : IsLine name.name := hwords name (by simp)
    split at h
    · cases h
    · cases h
      exact hname
    · cases h
      exact hname
  · cases h

theorem legible_of_openProperty {words : List Symbol} {soft : Bool} {read : Block ⊕ Item}
    (h : openProperty line words soft = .ok read) (hwords : ∀ word ∈ words, IsLine word.name) :
    LegibleRead read := by
  unfold openProperty at h
  split at h
  · next name =>
    cases h
    exact hwords name (by simp)
  · cases h

theorem legible_of_opens {read : Block ⊕ Item} (h : Opens line read) : LegibleRead read := by
  have hwords : ∀ word ∈ line.tokens, IsLine word.name := fun _ => isLine_of_mem_tokens
  rcases h with h | ⟨soft, h⟩
  · exact legible_of_openSet h hwords
  · exact legible_of_openProperty h hwords

theorem Block.Legible.readLine {block : Block} (hblock : block.Legible) {propositional : Bool}
    {read : Block ⊕ Item} (h : block.readLine propositional line = .ok read) :
    LegibleRead read := by
  cases block with
  | set name missing lines =>
    unfold Block.readLine at h
    simp only at h
    split at h <;> cases h <;> exact hblock
  | property name soft =>
    unfold Block.readLine at h
    simp only at h
    split at h
    · cases h
    · next formula hformula =>
      cases h
      refine ⟨hblock, fun a ha => isLine_of_mem_tokens (l := line) ?_⟩
      split at hformula
      · exact Formula.atoms_subset_of_propositionalOfWords hformula ha
      · exact Formula.atoms_subset_of_ofWords hformula ha

theorem legible_addBlock (hr : r.Legible) {block : SetBlock}
    (hblock : IsLine block.name.name) (h : addBlock w r block = .ok r') : r'.Legible := by
  obtain ⟨s, hs, rfl⟩ := addBlock_eq_ok_iff.mp h
  have hname : IsLine s.name := by
    unfold ActionSet.ofBlock at hs
    split at hs
    · cases hs
    · cases hs
      exact hblock
  refine { hr with sets := fun set hset => ?_ }
  simp only [ActionSets.add] at hset
  split at hset
  · exact hr.sets set hset
  · rcases List.mem_append.mp hset with hset | hset
    · exact hr.sets set hset
    · rw [List.mem_singleton.mp hset]
      exact hname

theorem legible_addItem (hr : r.Legible) {item : Item} (hitem : item.Legible)
    (h : addItem w dialect r item = .ok r') : r'.Legible := by
  cases item with
  | set block =>
    unfold addItem at h
    simp only at h
    split at h
    · cases h
    · next hadd =>
      cases h
      exact legible_addBlock hr hitem hadd
  | property p =>
    have happend : ∀ ps : List Property, (∀ q ∈ ps, q.Legible) → ∀ q ∈ ps ++ [p], q.Legible :=
      fun ps hps => List.forall_mem_append.mpr ⟨hps, List.forall_mem_singleton.mpr hitem⟩
    cases dialect <;> cases h
    · exact { hr with properties := happend _ hr.properties }
    · exact { hr with temporal := happend _ hr.temporal }

/-! ## Classes -/

/-- All names that the class declares so far fill lines. -/
structure ClassDraft.Legible (d : ClassDraft) : Prop where
  blocks : ∀ b ∈ d.blocks, IsLine b.name.name
  properties : ∀ p ∈ d.properties, p.Legible
  instanceBlocks : ∀ b ∈ d.instanceBlocks, IsLine b.name.name
  instanceProperties : ∀ p ∈ d.instanceProperties, p.Legible

/-- What is being read at the place has names that fill lines. -/
def Place.Legible : Place → Prop
  | .outside | .softGoals => True
  | .block b => b.Legible
  | .classHead d | .instancesHead d | .instances d | .classBody d none => d.Legible
  | .classBody d (some b) => d.Legible ∧ b.Legible

theorem legible_ofHeader {soft : Bool} {place : Place}
    (h : ClassDraft.ofHeader line soft = .ok place) : place.Legible := by
  have hempty : ∀ (name : String) (params : List Symbol),
      (⟨line, name, soft, params, [], [], [], []⟩ : ClassDraft).Legible := fun name params =>
    ⟨by simp, by simp, by simp, by simp⟩
  unfold ClassDraft.ofHeader at h
  simp only at h
  split at h
  · cases h
  · split at h
    · cases h
      exact hempty _ _
    · cases h
      exact hempty _ _
    · cases h

namespace ClassDraft

variable {d d' : ClassDraft}

theorem Legible.addItem (hd : d.Legible) {item : Item} (hitem : item.Legible) :
    (d.addItem item).Legible := by
  cases item with
  | set block =>
    refine { hd with blocks := ?_ }
    exact List.forall_mem_append.mpr ⟨hd.blocks, List.forall_mem_singleton.mpr hitem⟩
  | property p =>
    refine { hd with properties := ?_ }
    exact List.forall_mem_append.mpr ⟨hd.properties,
      List.forall_mem_singleton.mpr ⟨hitem.name, hitem.atoms⟩⟩

theorem Legible.continueBlock (hd : d.Legible) {read : Block ⊕ Item} (hread : LegibleRead read) :
    (d.continueBlock read).Legible := by
  cases read with
  | inl block => exact ⟨hd, hread⟩
  | inr item => exact hd.addItem hread

theorem Legible.readBody (hd : d.Legible) {place : Place} (h : d.readBody line = .ok place) :
    place.Legible := by
  rcases readBody_eq_ok h with rfl | rfl | ⟨read, hopens, rfl⟩
  · exact hd
  · exact hd
  · exact hd.continueBlock (legible_of_opens hopens)

theorem Legible.addInstance (hd : d.Legible) {args : List Symbol}
    (hargs : ∀ arg ∈ args, IsLine arg.name) : (d.addInstance args).Legible := by
  refine { hd with instanceBlocks := ?_, instanceProperties := ?_ }
  · refine List.forall_mem_append.mpr ⟨hd.instanceBlocks, List.forall_mem_map.mpr fun b hb => ?_⟩
    exact isLine_instanceName (hd.blocks b hb) hargs
  · refine List.forall_mem_append.mpr
      ⟨hd.instanceProperties, List.forall_mem_map.mpr fun p hp => ?_⟩
    exact legible_withSuffix (hd.properties p hp) hargs

theorem Legible.readInstance (hd : d.Legible) (hline : '\n' ∉ line.text.toList)
    (h : d.readInstance line = .ok d') : d'.Legible := by
  obtain ⟨app, happ, -, rfl⟩ := readInstance_eq_ok h
  refine hd.addInstance (isLine_of_mem_args happ fun hc => hline ?_)
  rw [Piece.chars_trim] at hc
  exact Text.trim_subset _ hc

theorem Legible.finish (hd : d.Legible) (hr : r.Legible) (h : d.finish w r = .ok r') :
    r'.Legible := by
  unfold ClassDraft.finish at h
  split at h
  · cases h
  · next after hafter =>
    cases h
    have hsets : after.Legible := foldSteps_invariant PropertySet.Legible hafter hr
      fun block hblock _ _ hu hstep => legible_addBlock hu (hd.instanceBlocks block hblock) hstep
    refine { hsets with properties := ?_ }
    exact List.forall_mem_append.mpr ⟨hsets.properties, hd.instanceProperties⟩

end ClassDraft

/-! ## Reading -/

/-- All names that were read fill lines. -/
structure State.Legible (s : State) : Prop where
  result : s.result.Legible
  place : s.place.Legible

theorem legible_continueBlock (hr : r.Legible) {read : Block ⊕ Item} (hread : LegibleRead read)
    {s : State} (h : continueBlock w dialect r read = .ok s) : s.Legible := by
  unfold continueBlock at h
  split at h
  · cases h
    exact ⟨hr, hread⟩
  · split at h
    · cases h
    · next hadd =>
      cases h
      exact ⟨legible_addItem hr hread hadd, trivial⟩

/-- Every line of an input keeps this. -/
theorem State.Legible.step {s s' : State} (hs : s.Legible) (hline : '\n' ∉ line.text.toList)
    (h : Step w dialect line s s') : s'.Legible := by
  obtain ⟨hresult, hplace⟩ := hs
  cases h with
  | stay => exact ⟨hresult, hplace⟩
  | endGoals => exact ⟨hresult, trivial⟩
  | openBlock hopens hcontinue =>
    exact legible_continueBlock hresult (legible_of_opens hopens) hcontinue
  | openClass hheader => exact ⟨hresult, legible_ofHeader hheader⟩
  | openGoals => exact ⟨hresult, trivial⟩
  | inBlock hread hcontinue =>
    exact legible_continueBlock hresult (Block.Legible.readLine hplace hread) hcontinue
  | goal => exact ⟨⟨hresult.sets, hresult.properties, hresult.temporal⟩, trivial⟩
  | openBody => exact ⟨hresult, hplace⟩
  | inBody hread => exact ⟨hresult, ClassDraft.Legible.readBody hplace hread⟩
  | inBodyBlock hread =>
    exact ⟨hresult, hplace.1.continueBlock (Block.Legible.readLine hplace.2 hread)⟩
  | openInstances => exact ⟨hresult, hplace⟩
  | addInstance hread => exact ⟨hresult, ClassDraft.Legible.readInstance hplace hline hread⟩
  | finish hfinish => exact ⟨ClassDraft.Legible.finish hplace hresult hfinish, trivial⟩

/-- All names that a property file declares fill lines. -/
theorem legible_of_read {input : Input} {set : PropertySet}
    (h : read w dialect input = .ok set) : set.Legible := by
  obtain ⟨s, hs, -, rfl⟩ := exists_of_read h
  have hempty : State.Legible ⟨.empty, .outside⟩ :=
    ⟨⟨List.forall_mem_nil _, List.forall_mem_nil _, List.forall_mem_nil _⟩, trivial⟩
  have hread : s.Legible := foldSteps_invariant State.Legible hs hempty
    fun _ hline _ _ hu hstep => hu.step (notMem_text hline) (step_of_readLine hstep)
  exact hread.result

end

end PropertyFile

end PlanConstraints

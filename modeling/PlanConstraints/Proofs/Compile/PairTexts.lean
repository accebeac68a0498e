import PlanConstraints.Compile.Modes
import PlanConstraints.Proofs.Property.Writing

set_option autoImplicit false

/-!
# The property files of pairs of properties

The property file for a pair of properties of a file without classes is read again, as the action
sets that the two properties use and a single property: the first one without the second
(`pairFile_reads`).  Its formula is a conjunction or a disjunction, whatever the two formulas are,
so that its line cannot be taken for a comment.
-/

namespace PlanConstraints

namespace Formula

variable {α : Type}

/-! ## Roots -/

/-- The formula is a conjunction or a disjunction. -/
def IsJunction (f : Formula α) : Prop := ∃ a b, f = .and a b ∨ f = .or a b

theorem isJunction_distributeAnd (f g : Formula α) : (distributeAnd f g).IsJunction := by
  unfold distributeAnd
  split
  · exact ⟨_, _, .inr rfl⟩
  · split
    · exact ⟨_, _, .inr rfl⟩
    · exact ⟨_, _, .inl rfl⟩

theorem IsJunction.distribute {f : Formula α} (h : f.IsJunction) : f.distribute.IsJunction := by
  obtain ⟨a, b, rfl | rfl⟩ := h
  · exact isJunction_distributeAnd _ _
  · exact ⟨_, _, .inr rfl⟩

theorem IsJunction.distributeAll {f : Formula α} (h : f.IsJunction) :
    f.distributeAll.IsJunction := by
  fun_induction Formula.distributeAll f with
  | case1 f _ => exact h
  | case2 f _ ih => exact ih h.distribute

theorem isJunction_toDnf_and (f g : Formula α) : (and f g).toDnf.IsJunction :=
  IsJunction.distributeAll ⟨_, _, .inl rfl⟩

theorem isWord_of_mem_words_symbol {f : Formula Symbol}
    (hf : ∀ a ∈ f.atoms, Text.IsWord a.name.toList) :
    ∀ word ∈ f.words, Text.IsWord word.toList := by
  intro word hword
  rw [← words_map_nameOf] at hword
  refine isWord_of_mem_words (fun a ha => ?_) hword
  rw [atoms_map] at ha
  obtain ⟨b, hb, rfl⟩ := List.mem_map.mp ha
  exact hf b hb

theorem words_ne_nil [Named α] (f : Formula α) : f.words ≠ [] := by
  cases f with
  | const b => cases b <;> exact List.cons_ne_nil _ _
  | atom a => exact List.cons_ne_nil _ _
  | unary op f => exact List.cons_ne_nil _ _
  | binary op f g => exact List.cons_ne_nil _ _

/-- The words of a conjunction or a disjunction do not make a comment. -/
theorem IsJunction.isContent {f : Formula Symbol} (h : f.IsJunction)
    (hf : ∀ a ∈ f.atoms, Text.IsWord a.name.toList) : IsContent f.words := by
  refine ⟨f.words_ne_nil, isWord_of_mem_words_symbol hf, ?_⟩
  obtain ⟨a, b, rfl | rfl⟩ := h
  · simp [words, BinaryOp.sign]
  · simp [words, BinaryOp.sign]

end Formula

namespace Exclusivity

variable {set : PropertySet} {p q : Property}

/-! ## The property -/

/-- The property that the first one holds without the second one. -/
def pairProperty (p q : Property) : Property := ⟨.ofName (pairName p q), formula p q, false⟩

theorem atoms_formula_subset (p q : Property) :
    (formula p q).atoms ⊆ p.formula.atoms ++ q.formula.atoms := by
  have hatoms := Formula.atoms_toDnf_subset (Formula.and p.formula q.formula.negate)
  rwa [Formula.atoms, Formula.atoms_negate] at hatoms

/-- The formula says that the first property holds and the second one does not. -/
theorem eval_formula {value : Symbol → Bool} {b c : Bool} (hp : p.formula.eval value = .ok b)
    (hq : q.formula.eval value = .ok c) : (formula p q).eval value = .ok (b && !c) := by
  rw [formula, Formula.eval_toDnf_eq_ok_iff, Formula.eval_and_eq_ok_iff]
  refine ⟨b, !c, hp, ?_, rfl⟩
  rw [Formula.eval_negate, hq]
  rfl

/-- Properties that can be written make a property that can be written. -/
theorem declared_pairProperty (hp : p.Declared) (hq : q.Declared) :
    (pairProperty p q).Declared where
  name := by
    change Text.IsWord (p.name.name ++ "-" ++ q.name.name).toList
    rw [String.toList_append, String.toList_append]
    exact (hp.name.append (by decide)).append hq.name.notBlank
  propositional := by
    obtain ⟨b, hb⟩ := (Formula.eval_isOk_iff (fun _ => false) p.formula).mpr hp.propositional
    obtain ⟨c, hc⟩ := (Formula.eval_isOk_iff (fun _ => false) q.formula).mpr hq.propositional
    exact (Formula.eval_isOk_iff _ _).mp ⟨_, eval_formula hb hc⟩
  words a ha :=
    (List.mem_append.mp (atoms_formula_subset p q ha)).elim (hp.words a) (hq.words a)
  atoms a ha :=
    (List.mem_append.mp (atoms_formula_subset p q ha)).elim (hp.atoms a) (hq.atoms a)

/-! ## The lines -/

/-- The texts of the lines of the property file for a pair. -/
def lines (set : PropertySet) (p q : Property) : List String :=
  ("#" ++ p.formula.polish) :: ("#" ++ q.formula.polish) :: "" ::
    (PropertyFile.setTexts (usedSets set p q)
      ++ ["property " ++ pairName p q, (formula p q).polish])

theorem join_setTexts (sets : List ActionSet) :
    String.join ((PropertyFile.setTexts sets).map fun line => line ++ "\n") =
      String.join (sets.map fun s => s.block.text ++ "\n") := by
  induction sets with
  | nil => rfl
  | cons s sets ih =>
    rw [PropertyFile.setTexts, List.flatMap_cons, List.map_append, List.map_append,
      String.join_append, String.join_append, ← SetBlock.text_eq_join, ← PropertyFile.setTexts, ih]
    simp [String.join_cons]

theorem text_eq_join (set : PropertySet) (p q : Property) :
    text set p q = String.join ((lines set p q).map fun line => line ++ "\n") := by
  have hcomment : "\n#" = "\n" ++ "#" := rfl
  have hblank : "\n\n" = "\n" ++ "\n" := rfl
  rw [text, hcomment, hblank]
  simp only [lines, List.map_cons, List.map_append, List.map_nil, String.join_cons,
    String.join_append, String.join_nil, join_setTexts, String.append_assoc, String.empty_append,
    String.append_empty]

theorem isLine_polish {f : Formula Symbol} (hf : ∀ a ∈ f.atoms, Text.IsWord a.name.toList) :
    IsLine f.polish :=
  isLine_intercalate f.words_ne_nil (Formula.isWord_of_mem_words_symbol hf)

theorem isLine_wordLines {b : SetBlock} (hb : b.Declared) :
    ∀ text ∈ b.wordLines.map " ".intercalate, IsLine text := by
  refine List.forall_mem_map.mpr (List.forall_mem_cons.mpr ⟨?_, List.forall_mem_map.mpr ?_⟩)
  · refine isLine_intercalate (List.cons_ne_nil _ _) (List.forall_mem_cons.mpr ⟨by decide, ?_⟩)
    exact List.forall_mem_cons.mpr
      ⟨hb.name, List.forall_mem_singleton.mpr (Text.isWord_natural _)⟩
  · intro line hline
    exact isLine_intercalate (hb.lines line hline).ne_nil (hb.lines line hline).words

/-- Every line is blank or filled. -/
theorem blank_or_isLine {w : World} (hset : set.Declared w) (hp : p.Declared) (hq : q.Declared) :
    ∀ text ∈ lines set p q, text = "" ∨ IsLine text := by
  have hmark : IsLine "#" := by decide
  have hpair := declared_pairProperty hp hq
  have hkeyword : IsLine "property" := by decide
  have hheader := hkeyword.append hpair.name.isLine (m := " ") (by decide)
  refine List.forall_mem_cons.mpr ⟨.inr (hmark.append_append (isLine_polish hp.words)), ?_⟩
  refine List.forall_mem_cons.mpr ⟨.inr (hmark.append_append (isLine_polish hq.words)), ?_⟩
  refine List.forall_mem_cons.mpr ⟨.inl rfl, List.forall_mem_append.mpr ⟨?_, ?_⟩⟩
  · intro text htext
    obtain ⟨s, hs, htext⟩ := List.mem_flatMap.mp htext
    rcases List.mem_append.mp htext with htext | htext
    · exact .inr (isLine_wordLines (hset.blocks s (List.mem_filter.mp hs).1) text htext)
    · exact .inl (List.mem_singleton.mp htext)
  · exact List.forall_mem_cons.mpr
      ⟨.inr hheader, List.forall_mem_singleton.mpr (.inr (isLine_polish hpair.words))⟩

/-- What the property file for a pair declares: the sets that are used, with the same names and
actions, and a single property. -/
def IsPairFile (set : PropertySet) (p q : Property) (result : PropertySet) : Prop :=
  ∃ sets r, result = ⟨⟨sets⟩, [r], [], []⟩ ∧
    List.Forall₂ ActionSet.SameAs (usedSets set p q) sets ∧
      PropertyFile.SameProperty (pairProperty p q) r

/-- The lines of the file for a pair are read one after the other. -/
theorem leads_lines {w : World} (hset : set.Declared w) (hp : p.Declared) (hq : q.Declared) :
    PropertyFile.Leads w (lines set p q ++ [""]) ⟨.empty, .outside⟩ fun s =>
      s.place = .outside ∧ IsPairFile set p q s.result := by
  have hpair := declared_pairProperty hp hq
  have hcontent : IsContent (pairProperty p q).formula.words :=
    (Formula.isJunction_toDnf_and _ _).isContent hpair.words
  have hused : List.Sublist (usedSets set p q) set.actionSets.sets := List.filter_sublist
  rw [lines, List.cons_append, List.cons_append, List.cons_append, List.append_assoc]
  refine PropertyFile.leads_skipped (.inr (by simp)) ?_
  refine PropertyFile.leads_skipped (.inr (by simp)) ?_
  refine PropertyFile.leads_skipped (.inl rfl) ?_
  refine PropertyFile.leads_sets (fun s hs => hset.blocks s (hused.subset hs))
    (fun s hs => hset.sets s (hused.subset hs)) ?_ fun sets hsets => ?_
  · exact hset.nodup.sublist (hused.map _)
  refine PropertyFile.leads_property hpair rfl hcontent fun r hr => ?_
  refine PropertyFile.leads_skipped (.inl rfl) (PropertyFile.leads_nil ⟨rfl, ?_⟩)
  exact ⟨sets, r, rfl, hsets, hr⟩

/-- The property file for two properties of a file without classes is read as the sets that one of
them uses, with the same actions, and one hard property that is true if the first property is and
the second one is not.

`hfree` bears the load: without classes all sets are those of blocks in the file, so that their
names and templates are words that can be written and read again. -/
theorem pairFile_reads {w : World} {input : Input} (hfree : PropertyFile.ClassFree w input)
    (hread : PropertyFile.read w .actionSets input = .ok set) (hp : p ∈ set.properties)
    (hq : q ∈ set.properties) (source : Option String) :
    ∃ sets r, PropertyFile.read w .actionSets ⟨text set p q, source⟩ =
        .ok ⟨⟨sets⟩, [r], [], []⟩ ∧
      r.name.name = p.name.name ++ "-" ++ q.name.name ∧ r.soft = false ∧
      (∀ value : String → Bool, ∃ b c, p.formula.eval (fun a => value a.name) = .ok b ∧
        q.formula.eval (fun a => value a.name) = .ok c ∧
          r.formula.eval (fun a => value a.name) = .ok (b && !c)) ∧
      List.Forall₂ (fun s s' : ActionSet => s'.name = s.name ∧
          ∀ operator, s'.containsOperator operator = s.containsOperator operator)
        (set.actionSets.sets.filter fun s => p.usesSet s.name || q.usesSet s.name) sets := by
  have hset := PropertyFile.declared_of_read hfree hread
  have hpd := hset.properties p hp
  have hqd := hset.properties q hq
  have hends : ∀ text ∈ lines set p q, '\n' ∉ text.toList ∧ text.toList.getLast? ≠ some '\r' := by
    intro text htext
    rcases blank_or_isLine hset hpd hqd text htext with rfl | hline
    · decide
    · exact ⟨hline.2, hline.getLast?_ne_return⟩
  obtain ⟨set', hread', sets, r, rfl, hsets, hr⟩ :=
    PropertyFile.read_of_leads hends (leads_lines hset hpd hqd) source
  rw [← text_eq_join] at hread'
  refine ⟨sets, r, hread', hr.name, hr.soft, fun value => ?_, ?_⟩
  · obtain ⟨b, hb⟩ := (Formula.eval_isOk_iff (fun a => value a.name) _).mpr hpd.propositional
    obtain ⟨c, hc⟩ := (Formula.eval_isOk_iff (fun a => value a.name) _).mpr hqd.propositional
    refine ⟨b, c, hb, hc, ?_⟩
    rw [← Formula.eval_map, hr.formula, Formula.eval_map]
    exact eval_formula hb hc
  · exact hsets.imp fun s s' hsame => ⟨hsame.name, hsame.containsOperator⟩

/-! ## Moving and loading -/

/-- A truck and two places. -/
def yard : World := ⟨[], ["t", "near", "far"].map fun object => (object, topType)⟩

/-- Three sets, one of which no property uses, and two properties. -/
def loading : Input := .ofText ("set moves 2\nmove t  near\n# there\nmove t far\n\nset loads 1\n"
  ++ "load t *\n\nset unused 1\nunload t *\n\nproperty p\n|| moves loads\n\n"
  ++ "soft-property q\nmoves\n")

/-- The names and formulas of the two properties, and the sets that they use. -/
def LoadingFacts (set : PropertySet) (p q : Property) : Prop :=
  p.name.name = "p" ∧ q.name.name = "q" ∧
    p.formula.map Symbol.name = .or (.atom "moves") (.atom "loads") ∧
      q.formula.map Symbol.name = .atom "moves" ∧
        (usedSets set p q).map ActionSet.name = ["moves", "loads"]

instance (set : PropertySet) (p q : Property) : Decidable (LoadingFacts set p q) :=
  inferInstanceAs (Decidable (_ ∧ _))

/-- Something is loaded although nothing moves: the file for this speaks of two of the sets. -/
theorem loading_pair : ∃ set p q sets r, PropertyFile.read yard .actionSets loading = .ok set ∧
    set.properties = [p, q] ∧
      PropertyFile.read yard .actionSets ⟨text set p q, none⟩ = .ok ⟨⟨sets⟩, [r], [], []⟩ ∧
        r.name.name = "p-q" ∧ sets.map ActionSet.name = ["moves", "loads"] ∧
          ∀ value : String → Bool, r.formula.eval (fun a => value a.name) =
            .ok ((value "moves" || value "loads") && !value "moves") := by
  have hfree : PropertyFile.ClassFree yard loading :=
    PropertyFile.classFree_of_lines (by decide +kernel)
  have hrun : (PropertyFile.read yard .actionSets loading).toOption.map (fun set =>
      decide (set.properties.length = 2 ∧ ∀ p ∈ set.properties[0]?, ∀ q ∈ set.properties[1]?,
        LoadingFacts set p q)) = some true := by
    decide +kernel
  obtain ⟨set, hset, hfacts⟩ := Option.map_eq_some_iff.mp hrun
  obtain ⟨hlength, hfacts⟩ := of_decide_eq_true hfacts
  obtain ⟨p, q, hpq⟩ := List.length_eq_two.mp hlength
  rw [hpq] at hfacts
  obtain ⟨hp, hq, hpf, hqf, hused⟩ := hfacts p rfl q rfl
  have hread := eq_ok_of_toOption hset
  obtain ⟨sets, r, hagain, hname, -, hvalue, hsets⟩ := pairFile_reads hfree hread
    (p := p) (q := q) (by simp [hpq]) (by simp [hpq]) none
  refine ⟨set, p, q, sets, r, hread, hpq, hagain, by rw [hname, hp, hq]; rfl, ?_, fun value => ?_⟩
  · have hnames : List.Forall₂ Eq ((usedSets set p q).map ActionSet.name)
        (sets.map ActionSet.name) :=
      List.forall₂_map_left_iff.mpr (List.forall₂_map_right_iff.mpr
        (hsets.imp fun s s' hsame => hsame.1.symm))
    rw [List.forall₂_eq_eq_eq] at hnames
    rw [← hnames, hused]
  · obtain ⟨b, c, hb, hc, hbc⟩ := hvalue value
    rw [← Formula.eval_map, hpf] at hb
    rw [← Formula.eval_map, hqf] at hc
    cases hb
    cases hc
    exact hbc

end Exclusivity

end PlanConstraints

import Mathlib.Data.List.Forall2
import PlanConstraints.Proofs.Formula.Polish
import PlanConstraints.Proofs.Property.Declared

set_option autoImplicit false

/-!
# Writing sets and properties in a property file

The lines in which a set or a property is written lead the reader outside of blocks to a state in
which the same set or property has been added (`leads_sets`, `leads_property`).  What is read
remembers other places, so that it is the same by its names only.
-/

namespace PlanConstraints

/-! ## Sets with the same words -/

namespace ActionSet

variable {w : World}

theorem readParam_of_name {a b : Symbol} {param : Param} (hname : a.name = b.name)
    (h : Template.readParam w a = .ok param) : Template.readParam w b = .ok param := by
  unfold Template.readParam at h ⊢
  rw [← hname]
  simp only at h ⊢
  split at h
  · next hany => rwa [if_pos hany]
  · next hany =>
    rw [if_neg hany]
    split at h
    · next htype => rwa [if_pos htype]
    · next htype =>
      rw [if_neg htype]
      split at h
      · next hobject => rwa [if_pos hobject]
      · cases h

theorem traverse_readParam_of_names {as bs : List Symbol} {params : List Param}
    (hnames : as.map Symbol.name = bs.map Symbol.name)
    (h : traverse (Template.readParam w) as = .ok params) :
    traverse (Template.readParam w) bs = .ok params := by
  induction as generalizing bs params with
  | nil =>
    obtain rfl : bs = [] := List.map_eq_nil_iff.mp hnames.symm
    exact h
  | cons a as ih =>
    obtain ⟨b, bs, rfl, hb, hbs⟩ := List.map_eq_cons_iff.mp hnames.symm
    obtain ⟨param, rest, hparam, hrest, rfl⟩ := traverse_cons_eq_ok h
    rw [traverse, readParam_of_name hb.symm hparam, ih hbs.symm hrest]

/-- The names of the set and of the action matter for errors only. -/
theorem addTemplate_of_ok {set set' : String} {action action' : Symbol} {t : Template}
    {ms ms' : List Matcher} (h : addTemplate w set action t ms = .ok ms') :
    addTemplate w set' action' t ms = .ok ms' := by
  induction ms generalizing ms' with
  | nil => exact h
  | cons m ms ih =>
    unfold addTemplate at h ⊢
    by_cases haction : m.action = t.name
    · rw [if_pos haction] at h ⊢
      split at h
      · next harity => rwa [if_pos harity]
      · cases h
    · rw [if_neg haction] at h ⊢
      split at h
      · cases h
      · next rest hrest => rw [ih hrest]; exact h

theorem readLines_of_names {set set' : Symbol} {lines lines' : List (List Symbol)}
    (hnames : lines.map (List.map Symbol.name) = lines'.map (List.map Symbol.name))
    {ts ts' : List Template} {ms ms' : List Matcher}
    (h : readLines w set ts ms lines = .ok (ts', ms')) :
    readLines w set' ts ms lines' = .ok (ts', ms') := by
  induction lines generalizing lines' ts ms with
  | nil =>
    obtain rfl : lines' = [] := List.map_eq_nil_iff.mp hnames.symm
    exact h
  | cons line lines ih =>
    obtain ⟨line', lines', rfl, hline, hlines⟩ := List.map_eq_cons_iff.mp hnames.symm
    cases line with
    | nil => cases h
    | cons action params =>
      obtain ⟨action', params', rfl, haction, hparams⟩ := List.map_eq_cons_iff.mp hline
      unfold readLines at h ⊢
      split at h
      · cases h
      · next read hread =>
        rw [traverse_readParam_of_names hparams.symm hread, haction]
        simp only at h ⊢
        split at h
        · cases h
        · next added hadded =>
          rw [addTemplate_of_ok hadded]
          exact ih hlines.symm h

/-- The actions of a set depend on the words of its block only. -/
theorem ofBlock_of_names {b b' : SetBlock} {s : ActionSet}
    (hnames : b.lines.map (List.map Symbol.name) = b'.lines.map (List.map Symbol.name))
    (h : ofBlock w b = .ok s) : ofBlock w b' = .ok ⟨b', s.templates, s.matchers⟩ := by
  unfold ofBlock at h ⊢
  split at h
  · cases h
  · next ts ms hread =>
    cases h
    rw [readLines_of_names hnames hread]

/-- The sets have one name and the same actions. -/
structure SameAs (s s' : ActionSet) : Prop where
  name : s'.name = s.name
  matchers : s'.matchers = s.matchers

theorem SameAs.containsOperator {s s' : ActionSet} (h : s.SameAs s') (operator : String) :
    s'.containsOperator operator = s.containsOperator operator := by
  unfold ActionSet.containsOperator contains
  rw [h.matchers]

end ActionSet

namespace SetBlock

/-- The words of the templates, line by line. -/
def words (b : SetBlock) : List (List String) := b.lines.map (List.map Symbol.name)

/-- The words of the lines in which the block is written. -/
def wordLines (b : SetBlock) : List (List String) :=
  ["set", b.name.name, toString b.lines.length] :: b.words

theorem text_eq_join (b : SetBlock) :
    b.text = String.join ((b.wordLines.map " ".intercalate).map fun line => line ++ "\n") := by
  simp [text, wordLines, words, String.join_cons, String.intercalate_cons_cons, String.append_assoc,
    Function.comp_def]

end SetBlock

theorem isContent_cons {word : String} {words : List String} (hword : Text.IsWord word.toList)
    (hwords : ∀ v ∈ words, Text.IsWord v.toList) (hmark : word.toList.head? ≠ some '#') :
    IsContent (word :: words) :=
  ⟨List.cons_ne_nil word words, List.forall_mem_cons.mpr ⟨hword, hwords⟩, by simpa using hmark⟩

namespace PropertyFile

variable {w : World} {r : PropertySet} {texts : List String} {P : State → Prop}

/-- Lines with the given texts lead the reader from a state to one with the property. -/
def Leads (w : World) (texts : List String) (s : State) (P : State → Prop) : Prop :=
  ∀ lines : List Line, lines.map Line.text = texts →
    ∃ s', foldSteps (readLine w .actionSets) s lines = .ok s' ∧ P s'

theorem leads_nil {s : State} (hs : P s) : Leads w [] s P := by
  intro lines hlines
  rw [List.map_eq_nil_iff.mp hlines]
  exact ⟨s, rfl, hs⟩

theorem Leads.cons {text : String} {s : State} (h : ∀ line : Line, line.text = text →
    ∃ s', readLine w .actionSets s line = .ok s' ∧ Leads w texts s' P) :
    Leads w (text :: texts) s P := by
  intro lines hlines
  obtain ⟨line, lines, rfl, htext, hrest⟩ := List.map_eq_cons_iff.mp hlines
  obtain ⟨s', hs', hleads⟩ := h line htext
  rw [foldSteps, hs']
  exact hleads lines hrest

/-- A line with words is read for them. -/
theorem leads_content {ws : List String} (hws : IsContent ws) {s : State}
    (h : ∀ line : Line, line.tokens.map Symbol.name = ws →
      ∃ s', readContent w .actionSets s line = .ok s' ∧ Leads w texts s' P) :
    Leads w (" ".intercalate ws :: texts) s P := by
  refine Leads.cons fun line htext => ?_
  obtain ⟨hskip, hwords⟩ := tokens_of_isContent hws htext
  rw [readLine_of_not_isSkipped s hskip]
  exact h line hwords

/-- Blank lines and comments are skipped outside of blocks. -/
theorem leads_skipped {text : String} (htext : text.toList = [] ∨ text.toList.head? = some '#')
    (h : Leads w texts ⟨r, .outside⟩ P) : Leads w (text :: texts) ⟨r, .outside⟩ P := by
  refine Leads.cons fun line hline => ⟨⟨r, .outside⟩, ?_, h⟩
  unfold readLine
  split
  · rfl
  · next hblank =>
    rw [if_pos]
    rw [← hline] at htext
    rcases htext with hnil | hmark
    · simp [Line.isBlank, Line.piece, Piece.isBlank, hnil] at hblank
    · obtain ⟨cs, hcs⟩ := List.head?_eq_some_iff.mp hmark
      have hhead : (Text.trim line.text.toList).head? = some '#' := by
        rw [Text.head?_trim, hcs, Text.trimLeft_cons (by decide)]
        rfl
      rw [isSkipped, Piece.chars_trim]
      exact Bool.or_eq_true_iff.mpr (.inr (beq_iff_eq.mpr hhead))

/-! ## Sets -/

/-- The templates of a set, when the last of them completes the set. -/
theorem leads_templates {name : Symbol} {wss : List (List String)} (hwss : ∀ ws ∈ wss, IsContent ws)
    (hne : wss ≠ []) (read : List (List Symbol))
    (hend : ∀ lines : List (List Symbol), lines.map (List.map Symbol.name) = wss →
      ∃ s', continueBlock w .actionSets r (.inr (.set ⟨name, read ++ lines⟩)) = .ok s' ∧
        Leads w texts s' P) :
    Leads w (wss.map " ".intercalate ++ texts) ⟨r, .block (.set name wss.length read)⟩ P := by
  induction wss generalizing read with
  | nil => exact absurd rfl hne
  | cons ws wss ih =>
    obtain ⟨hws, hrest⟩ := List.forall_mem_cons.mp hwss
    refine leads_content hws fun line hwords => ?_
    cases wss with
    | nil =>
      obtain ⟨s', hs', hleads⟩ := hend [line.tokens] (by simp [hwords])
      exact ⟨s', hs', hleads⟩
    | cons v wss =>
      refine ⟨⟨r, .block (.set name (wss.length + 1) (read ++ [line.tokens]))⟩, rfl, ?_⟩
      refine ih hrest (List.cons_ne_nil v wss) _ fun lines hlines => ?_
      rw [List.append_assoc]
      exact hend (line.tokens :: lines) (by rw [List.map_cons, hwords, hlines])

/-- The lines of a set of a new name. -/
theorem leads_block {s : ActionSet} (hblock : s.block.Declared)
    (hs : ActionSet.ofBlock w s.block = .ok s) (hfresh : s.name ∉ r.actionSets.names)
    (h : ∀ s', s.SameAs s' → s'.block.words = s.block.words →
      Leads w texts ⟨{ r with actionSets := ⟨r.actionSets.sets ++ [s']⟩ }, .outside⟩ P) :
    Leads w (s.block.wordLines.map " ".intercalate ++ texts) ⟨r, .outside⟩ P := by
  have hcount := Text.isWord_natural s.block.lines.length
  unfold SetBlock.wordLines SetBlock.words
  refine leads_content (isContent_cons (by decide) ?_ (by decide)) fun line hwords => ?_
  · exact List.forall_mem_cons.mpr ⟨hblock.name, List.forall_mem_singleton.mpr hcount⟩
  obtain ⟨keyword, words, htokens, hkeyword, hwords⟩ := List.map_eq_cons_iff.mp hwords
  obtain ⟨name, words, rfl, hname, hwords⟩ := List.map_eq_cons_iff.mp hwords
  obtain ⟨count, rfl, hnumber⟩ := List.map_eq_singleton_iff.mp hwords
  -- the block is complete when lines with the words of the templates have been read
  have hend : ∀ lines : List (List Symbol),
      lines.map (List.map Symbol.name) = s.block.lines.map (List.map Symbol.name) →
      ∃ s', continueBlock w .actionSets r (.inr (.set ⟨name, [] ++ lines⟩)) = .ok s' ∧
        Leads w texts s' P := by
    intro lines hlines
    have hread : ActionSet.ofBlock w ⟨name, lines⟩ =
        .ok ⟨⟨name, lines⟩, s.templates, s.matchers⟩ :=
      ActionSet.ofBlock_of_names hlines.symm hs
    have hnew : r.actionSets.contains name.name = false := by
      rw [ActionSets.contains, ActionSets.get?, Option.isSome_eq_false_iff,
        Option.isNone_iff_eq_none, List.find?_eq_none]
      intro other hother heq
      rw [hname] at heq
      exact hfresh (List.mem_map.mpr ⟨other, hother, of_decide_eq_true heq⟩)
    have hsame : s.SameAs ⟨⟨name, lines⟩, s.templates, s.matchers⟩ := ⟨hname, rfl⟩
    refine ⟨_, ?_, h _ hsame hlines⟩
    simp [continueBlock, addItem, addBlock, hread, ActionSets.add, ActionSet.name, hnew]
  have hopen : ∀ read, openSet line [keyword, name, count] = .ok read →
      readContent w .actionSets ⟨r, .outside⟩ line = continueBlock w .actionSets r read := by
    intro read hread
    simp only [readContent, readOutside, htokens, hkeyword, hread]
  have hcounted : Text.natural? 64 count.name = some s.block.lines.length := by
    rw [hnumber, Text.natural?_toString hblock.count]
  have htemplates : ∀ ws ∈ s.block.lines.map (List.map Symbol.name), IsContent ws :=
    List.forall_mem_map.mpr hblock.lines
  cases hlines : s.block.lines with
  | nil =>
    rw [hlines] at hend hcounted
    rw [hopen (.inr (.set ⟨name, []⟩)) (by simp only [openSet, hcounted, List.length_nil])]
    exact hend [] rfl
  | cons template more =>
    rw [hlines] at hend hcounted htemplates
    rw [hopen (.inl (.set name (more.length + 1) []))
      (by simp only [openSet, hcounted, List.length_cons])]
    refine ⟨⟨r, .block (.set name (more.length + 1) [])⟩, rfl, ?_⟩
    have hleads := leads_templates htemplates (List.cons_ne_nil _ _) [] hend
    rwa [List.length_map, List.length_cons] at hleads

/-- The texts of the lines of several sets, with a blank line behind each. -/
def setTexts (sets : List ActionSet) : List String :=
  sets.flatMap fun s => s.block.wordLines.map " ".intercalate ++ [""]

/-- The lines of sets with different names, none of which is the name of an earlier one. -/
theorem leads_sets {sets : List ActionSet} (hblocks : ∀ s ∈ sets, s.block.Declared)
    (hsets : ∀ s ∈ sets, ActionSet.ofBlock w s.block = .ok s)
    (hnodup : (r.actionSets.names ++ sets.map ActionSet.name).Nodup)
    (h : ∀ sets', List.Forall₂ ActionSet.SameAs sets sets' →
      Leads w texts ⟨{ r with actionSets := ⟨r.actionSets.sets ++ sets'⟩ }, .outside⟩ P) :
    Leads w (setTexts sets ++ texts) ⟨r, .outside⟩ P := by
  induction sets generalizing r with
  | nil =>
    have hleads := h [] .nil
    rwa [List.append_nil] at hleads
  | cons s sets ih =>
    obtain ⟨hblock, hblocks⟩ := List.forall_mem_cons.mp hblocks
    obtain ⟨hs, hsets⟩ := List.forall_mem_cons.mp hsets
    have hfresh : s.name ∉ r.actionSets.names := fun hmem =>
      (List.nodup_append.mp hnodup).2.2 _ hmem _ List.mem_cons_self rfl
    rw [setTexts, List.flatMap_cons, List.append_assoc, List.append_assoc]
    refine leads_block hblock hs hfresh fun s' hsame _ => leads_skipped (.inl rfl) ?_
    refine ih hblocks hsets ?_ fun sets' hsets' => ?_
    · have hnames : ActionSets.names ⟨r.actionSets.sets ++ [s']⟩ =
          r.actionSets.names ++ [s.name] := by
        rw [ActionSets.names, List.map_append, List.map_singleton, hsame.name]
        rfl
      rwa [hnames, List.append_assoc]
    · have hleads := h (s' :: sets') (.cons hsame hsets')
      rwa [List.append_cons] at hleads

/-! ## Properties -/

/-- The properties have one name, one strength and the same formula up to where it was read. -/
structure SameProperty (p p' : Property) : Prop where
  name : p'.name.name = p.name.name
  soft : p'.soft = p.soft
  formula : p'.formula.map Symbol.name = p.formula.map Symbol.name

/-- The words of a formula are read as the formula. -/
theorem exists_propositionalOfWords {f : Formula Symbol} (hprop : f.isPropositional = true)
    (hatoms : ∀ a ∈ f.atoms, Formula.Meaning.ofWord a.name = .atom) {words : List Symbol}
    (hwords : words.map Symbol.name = f.words) :
    ∃ g, Formula.propositionalOfWords words = .ok g ∧ g.map Symbol.name = f.map Symbol.name := by
  have hnamed : (f.map Symbol.name).NamesAtoms := by
    intro a ha
    rw [Formula.atoms_map] at ha
    obtain ⟨b, hb, rfl⟩ := List.mem_map.mp ha
    exact hatoms b hb
  have hsame : words.map nameOf = (f.map Symbol.name).words :=
    hwords.trans (Formula.words_map_nameOf f).symm
  obtain ⟨g, hread, hg⟩ := Formula.exists_ofWords hnamed hsame
  refine ⟨g, Formula.propositionalOfWords_eq_ok_iff.mpr ⟨hread, ?_⟩, hg⟩
  rw [← Formula.isPropositional_map nameOf g, hg, Formula.isPropositional_map, hprop]

/-- The lines of a hard property. -/
theorem leads_property {p : Property} (hp : p.Declared) (hsoft : p.soft = false)
    (hcontent : IsContent p.formula.words)
    (h : ∀ p', SameProperty p p' →
      Leads w texts ⟨{ r with properties := r.properties ++ [p'] }, .outside⟩ P) :
    Leads w (("property " ++ p.name.name) :: p.formula.polish :: texts) ⟨r, .outside⟩ P := by
  have hheader : "property " ++ p.name.name = " ".intercalate ["property", p.name.name] := by
    simp [String.intercalate_cons_cons]
  rw [hheader]
  refine leads_content (isContent_cons (by decide) (List.forall_mem_singleton.mpr hp.name)
    (by decide)) fun line hline => ?_
  obtain ⟨keyword, words, htokens, hkeyword, hline⟩ := List.map_eq_cons_iff.mp hline
  obtain ⟨name, rfl, hname⟩ := List.map_eq_singleton_iff.mp hline
  refine ⟨⟨r, .block (.property name false)⟩, ?_, ?_⟩
  · have hopen : openProperty line [keyword, name] false = .ok (.inl (.property name false)) := rfl
    simp only [readContent, readOutside, htokens, hkeyword, hopen, continueBlock]
  refine leads_content hcontent fun line hline => ?_
  obtain ⟨g, hread, hg⟩ := exists_propositionalOfWords hp.propositional hp.atoms hline
  refine ⟨_, ?_, h ⟨name, g, false⟩ ⟨hname, hsoft.symm, hg⟩⟩
  simp [readContent, Block.readLine, hread, continueBlock, addItem]

/-! ## Files -/

/-- Lines that lead to a complete file are read as what they lead to. -/
theorem read_of_leads {Q : PropertySet → Prop}
    (htexts : ∀ text ∈ texts, '\n' ∉ text.toList ∧ text.toList.getLast? ≠ some '\r')
    (h : Leads w (texts ++ [""]) ⟨.empty, .outside⟩ fun s => s.place = .outside ∧ Q s.result)
    (source : Option String) :
    ∃ set, read w .actionSets ⟨String.join (texts.map fun text => text ++ "\n"), source⟩ = .ok set ∧
      Q set := by
  obtain ⟨s, hs, hplace, hQ⟩ := h _ (map_text_lines htexts source)
  refine ⟨s.result, ?_, hQ⟩
  rw [read, hs]
  simp only [hplace, Place.missing?]

end PropertyFile

end PlanConstraints

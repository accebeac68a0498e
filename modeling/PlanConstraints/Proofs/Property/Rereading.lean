import PlanConstraints.Proofs.Property.Legible
import PlanConstraints.Proofs.Property.Writing

set_option autoImplicit false

/-!
# Reading the text of a set again

The text of the block of a set is read as the same set exactly if its name is a word and no line of
it is a comment (`readsBack_of_read`).  Blocks that a file declares are like this, and their
instances are too if the arguments are words that do not start a comment.  An instance with another
argument can have a text that is refused.
-/

namespace PlanConstraints

namespace PropertyFile

/-! ## Where sets come from -/

/-- The reader finds an instance of a class with the arguments on some line. -/
def FindsInstance (w : World) (input : Input) (args : List Symbol) : Prop :=
  ∃ n r d line app,
    foldSteps (readLine w .actionSets) ⟨.empty, .outside⟩ (input.lines.take n) =
        .ok ⟨r, .instances d⟩ ∧
      input.lines[n]? = some line ∧ application? line.piece.trim = some app ∧ app.args = args

/-- A block that a file declares, or an instance of one with arguments that are found. -/
inductive Origin (found : List Symbol → Prop) : SetBlock → Prop where
  | inFile {b : SetBlock} (h : b.Declared) : Origin found b
  | ofInstance {b : SetBlock} {params args : List Symbol} (h : b.Declared) (hargs : found args) :
    Origin found (b.instantiate params args)

/-- The sets are those that their blocks declare, and the blocks have an origin. -/
structure TracedSets (w : World) (found : List Symbol → Prop) (r : PropertySet) : Prop where
  origin : ∀ s ∈ r.actionSets.sets, Origin found s.block
  sets : ∀ s ∈ r.actionSets.sets, ActionSet.ofBlock w s.block = .ok s

/-- The blocks of a class are declared, and those of its instances have an origin. -/
structure TracedDraft (found : List Symbol → Prop) (d : ClassDraft) : Prop where
  blocks : ∀ b ∈ d.blocks, b.Declared
  instanceBlocks : ∀ b ∈ d.instanceBlocks, Origin found b

/-- What is being read at the place has an origin. -/
def TracedPlace (found : List Symbol → Prop) : Place → Prop
  | .outside | .softGoals => True
  | .block b => b.Declared
  | .classHead d | .instancesHead d | .instances d | .classBody d none => TracedDraft found d
  | .classBody d (some b) => TracedDraft found d ∧ b.Declared

structure TracedState (w : World) (found : List Symbol → Prop) (s : State) : Prop where
  result : TracedSets w found s.result
  place : TracedPlace found s.place

section

variable {w : World} {found : List Symbol → Prop} {line : Line} {r r' : PropertySet}

theorem TracedSets.addBlock (hr : TracedSets w found r) {block : SetBlock}
    (hblock : Origin found block) (h : addBlock w r block = .ok r') : TracedSets w found r' := by
  obtain ⟨s, hs, rfl⟩ := addBlock_eq_ok_iff.mp h
  obtain rfl : s.block = block := by
    unfold ActionSet.ofBlock at hs
    split at hs <;> cases hs
    rfl
  unfold ActionSets.add
  split
  · exact ⟨hr.origin, hr.sets⟩
  · exact ⟨List.forall_mem_append.mpr ⟨hr.origin, List.forall_mem_singleton.mpr hblock⟩,
      List.forall_mem_append.mpr ⟨hr.sets, List.forall_mem_singleton.mpr hs⟩⟩

theorem TracedSets.addItem (hr : TracedSets w found r) {item : Item} (hitem : item.Declared)
    (h : addItem w .actionSets r item = .ok r') : TracedSets w found r' := by
  cases item with
  | set block =>
    unfold PropertyFile.addItem at h
    simp only at h
    split at h
    · cases h
    · next hadd =>
      cases h
      exact hr.addBlock (.inFile hitem) hadd
  | property p =>
    cases h
    exact ⟨hr.origin, hr.sets⟩

theorem TracedSets.continueBlock (hr : TracedSets w found r) {read : Block ⊕ Item}
    (hread : DeclaredRead read) {s : State} (h : continueBlock w .actionSets r read = .ok s) :
    TracedState w found s := by
  unfold PropertyFile.continueBlock at h
  split at h
  · cases h
    exact ⟨hr, hread⟩
  · split at h
    · cases h
    · next hadd =>
      cases h
      exact ⟨hr.addItem hread hadd, trivial⟩

theorem tracedPlace_ofHeader {soft : Bool} {place : Place}
    (h : ClassDraft.ofHeader line soft = .ok place) : TracedPlace found place := by
  have hempty : ∀ (name : String) (params : List Symbol),
      TracedDraft found ⟨line, name, soft, params, [], [], [], []⟩ := fun name params =>
    ⟨List.forall_mem_nil _, List.forall_mem_nil _⟩
  unfold ClassDraft.ofHeader at h
  simp only at h
  split at h
  · cases h
  · split at h
    · cases h
      exact hempty _ _
    · cases h
      exact hempty _ _
    · cases h

namespace TracedDraft

variable {d d' : ClassDraft}

theorem continueBlock (hd : TracedDraft found d) {read : Block ⊕ Item}
    (hread : DeclaredRead read) : TracedPlace found (d.continueBlock read) := by
  match read with
  | .inl block => exact ⟨hd, hread⟩
  | .inr (.set block) =>
    exact ⟨List.forall_mem_append.mpr ⟨hd.blocks, List.forall_mem_singleton.mpr hread⟩,
      hd.instanceBlocks⟩
  | .inr (.property p) => exact ⟨hd.blocks, hd.instanceBlocks⟩

theorem readBody (hd : TracedDraft found d) {place : Place} (h : d.readBody line = .ok place) :
    TracedPlace found place := by
  rcases ClassDraft.readBody_eq_ok h with rfl | rfl | ⟨read, hopens, rfl⟩
  · exact hd
  · exact hd
  · exact hd.continueBlock (declared_of_opens hopens)

theorem addInstance (hd : TracedDraft found d) {args : List Symbol} (hargs : found args) :
    TracedDraft found (d.addInstance args) := by
  refine ⟨hd.blocks, List.forall_mem_append.mpr ⟨hd.instanceBlocks, ?_⟩⟩
  exact List.forall_mem_map.mpr fun b hb => .ofInstance (hd.blocks b hb) hargs

theorem finish (hd : TracedDraft found d) (hr : TracedSets w found r)
    (h : d.finish w r = .ok r') : TracedSets w found r' := by
  unfold ClassDraft.finish at h
  split at h
  · cases h
  · next after hafter =>
    cases h
    have hsets : TracedSets w found after := foldSteps_invariant (TracedSets w found) hafter hr
      fun block hblock _ _ hu hstep => hu.addBlock (hd.instanceBlocks block hblock) hstep
    exact ⟨hsets.origin, hsets.sets⟩

end TracedDraft

/-- Every line that is not skipped keeps this, if the arguments of an instance on it are found. -/
theorem TracedState.step {s s' : State} (hs : TracedState w found s)
    (hskip : isSkipped line = false)
    (hfound : ∀ r d app, s = ⟨r, .instances d⟩ → application? line.piece.trim = some app →
      found app.args)
    (h : Step w .actionSets line s s') : TracedState w found s' := by
  obtain ⟨hresult, hplace⟩ := hs
  cases h with
  | stay => exact ⟨hresult, hplace⟩
  | endGoals => exact ⟨hresult, trivial⟩
  | openBlock hopens hcontinue =>
    exact hresult.continueBlock (declared_of_opens hopens) hcontinue
  | openClass hheader => exact ⟨hresult, tracedPlace_ofHeader hheader⟩
  | openGoals => exact ⟨hresult, trivial⟩
  | inBlock hread hcontinue =>
    exact hresult.continueBlock (Block.Declared.readLine hplace hskip hread) hcontinue
  | goal => exact ⟨⟨hresult.origin, hresult.sets⟩, trivial⟩
  | openBody => exact ⟨hresult, hplace⟩
  | inBody hread => exact ⟨hresult, TracedDraft.readBody hplace hread⟩
  | inBodyBlock hread =>
    exact ⟨hresult, hplace.1.continueBlock (Block.Declared.readLine hplace.2 hskip hread)⟩
  | openInstances => exact ⟨hresult, hplace⟩
  | addInstance hread =>
    obtain ⟨app, happ, -, rfl⟩ := ClassDraft.readInstance_eq_ok hread
    exact ⟨hresult, TracedDraft.addInstance hplace (hfound _ _ app rfl happ)⟩
  | finish hfinish => exact ⟨TracedDraft.finish hplace hresult hfinish, trivial⟩

/-- Every set of a file comes from a block, perhaps with arguments of an instance. -/
theorem traced_of_read {input : Input} {set : PropertySet}
    (h : read w .actionSets input = .ok set) : TracedSets w (FindsInstance w input) set := by
  obtain ⟨s, hs, -, rfl⟩ := exists_of_read h
  have hempty : TracedState w (FindsInstance w input) ⟨.empty, .outside⟩ :=
    ⟨⟨List.forall_mem_nil _, List.forall_mem_nil _⟩, trivial⟩
  have hrun := foldSteps_induction
    (motive := fun seen u => foldSteps (readLine w .actionSets) ⟨.empty, .outside⟩ seen = .ok u ∧
      TracedState w (FindsInstance w input) u) hs ⟨rfl, hempty⟩ ?_
  · exact hrun.2.result
  rintro seen line u u' hprefix ⟨hseen, hu⟩ hstep
  refine ⟨by rw [foldSteps_append, hseen]; simp [foldSteps, hstep], ?_⟩
  rcases readLine_eq_ok hstep with rfl | ⟨r, rfl, rfl⟩ | ⟨hskip, hcontent⟩
  · exact hu
  · exact ⟨hu.result, trivial⟩
  · refine hu.step hskip (fun r d app hplace happ => ?_) (step_of_readContent hcontent)
    obtain ⟨rest, hrest⟩ := hprefix
    refine ⟨seen.length, r, d, line, app, ?_, ?_, happ, rfl⟩
    · rw [← hrest, List.append_assoc, List.take_left, hseen, hplace]
    · rw [← hrest]
      simp

end

/-! ## Names and words of instances -/

end PropertyFile

namespace SetBlock

/-- The name and the words of the block can stand on lines. -/
structure Legible (b : SetBlock) : Prop where
  name : IsLine b.name.name
  lines : ∀ line ∈ b.lines, line ≠ [] ∧ ∀ word ∈ line, IsLine word.name

theorem Declared.legible {b : SetBlock} (h : b.Declared) : b.Legible where
  name := h.name.isLine
  lines line hline :=
    ⟨fun hnil => (h.lines line hline).ne_nil (hnil ▸ rfl), fun _ hword =>
      ((h.lines line hline).words _ (List.mem_map_of_mem hword)).isLine⟩

/-- A word stays or is replaced by an argument. -/
theorem name_argumentFor_or (params args : List Symbol) (word : Symbol) :
    (argumentFor params args word).name = word.name ∨
      ∃ arg ∈ args, (argumentFor params args word).name = arg.name := by
  unfold argumentFor
  split
  · next pair p arg hfind =>
    exact .inr ⟨arg, (List.of_mem_zip (List.mem_of_find?_eq_some hfind)).2, rfl⟩
  · exact .inl rfl

theorem Declared.legible_instantiate {b : SetBlock} (h : b.Declared) (params : List Symbol)
    {args : List Symbol} (hargs : ∀ arg ∈ args, IsLine arg.name) :
    (b.instantiate params args).Legible where
  name := isLine_instanceName h.name.isLine hargs
  lines := by
    refine List.forall_mem_map.mpr fun line hline => ?_
    obtain ⟨hne, hwords⟩ := h.legible.lines line hline
    refine ⟨fun hnil => hne (List.map_eq_nil_iff.mp hnil), List.forall_mem_map.mpr ?_⟩
    intro word hword
    rcases name_argumentFor_or params args word with heq | ⟨arg, harg, heq⟩
    · exact heq ▸ hwords word hword
    · exact heq ▸ hargs arg harg

theorem isWord_instanceName {name : String} (hname : Text.IsWord name.toList) {args : List Symbol}
    (hargs : ∀ arg ∈ args, Text.IsWord arg.name.toList) :
    Text.IsWord (instanceName name args).toList := by
  induction args using List.reverseRecOn with
  | nil => exact hname
  | append_singleton args arg ih =>
    rw [List.forall_mem_append, List.forall_mem_singleton] at hargs
    rw [instanceName_concat, String.toList_append, String.toList_append, List.append_assoc]
    refine (ih hargs.1).append fun c hc => ?_
    rcases List.mem_append.mp hc with hc | hc
    · rw [List.mem_singleton.mp hc]
      rfl
    · exact hargs.2.notBlank c hc

/-- Arguments that are words and no comments make instances that could be declared. -/
theorem Declared.instantiate {b : SetBlock} (h : b.Declared) (params : List Symbol)
    {args : List Symbol} (hargs : ∀ arg ∈ args, IsContent [arg.name]) :
    (b.instantiate params args).Declared where
  name := isWord_instanceName h.name fun arg harg => (hargs arg harg).words _ (by simp)
  count := by simpa [SetBlock.instantiate] using h.count
  lines := by
    refine List.forall_mem_map.mpr fun line hline => ?_
    obtain ⟨hne, hwords, hmark⟩ := h.lines line hline
    refine ⟨by simpa using hne, ?_, ?_⟩
    · simp only [List.map_map, List.forall_mem_map, Function.comp_apply] at hwords ⊢
      intro word hword
      rcases name_argumentFor_or params args word with heq | ⟨arg, harg, heq⟩
      · exact heq ▸ hwords word hword
      · exact heq ▸ (hargs arg harg).words _ (by simp)
    · cases line with
      | nil => exact absurd rfl hne
      | cons word rest =>
        simp only [List.map_cons, List.head?_cons, Option.bind_some] at hmark ⊢
        rcases name_argumentFor_or params args word with heq | ⟨arg, harg, heq⟩
        · exact heq ▸ hmark
        · exact heq ▸ (hargs arg harg).mark

end SetBlock

namespace PropertyFile

variable {w : World}

theorem FindsInstance.isLine {input : Input} {args : List Symbol}
    (h : FindsInstance w input args) : ∀ arg ∈ args, IsLine arg.name := by
  obtain ⟨n, r, d, line, app, -, hline, happ, rfl⟩ := h
  refine isLine_of_mem_args happ fun hc => notMem_text (List.mem_of_getElem? hline) ?_
  rw [Piece.chars_trim] at hc
  exact Text.trim_subset _ hc

theorem Origin.legible {found : List Symbol → Prop} {b : SetBlock} (h : Origin found b)
    (hfound : ∀ args, found args → ∀ arg ∈ args, IsLine arg.name) : b.Legible := by
  cases h with
  | inFile h => exact h.legible
  | ofInstance h hargs => exact h.legible_instantiate _ (hfound _ hargs)

theorem Origin.declared {found : List Symbol → Prop} {b : SetBlock} (h : Origin found b)
    (hfound : ∀ args, found args → ∀ arg ∈ args, IsContent [arg.name]) : b.Declared := by
  cases h with
  | inFile h => exact h
  | ofInstance h hargs => exact h.instantiate _ (hfound _ hargs)

/-! ## Reading the text -/

/-- The text of the block is read as one set, which has the name and the words of the set. -/
def ReadsBack (w : World) (s : ActionSet) : Prop :=
  ∃ set s', read w .actionSets (.ofText s.block.text) = .ok set ∧ set.actionSets.sets = [s'] ∧
    s'.name = s.name ∧ s'.block.words = s.block.words

/-- The lines of the text of a block. -/
theorem map_text_block {b : SetBlock} (h : b.Legible) :
    (Input.ofText b.text).lines.map Line.text = b.wordLines.map " ".intercalate ++ [""] := by
  have hlines : ∀ text ∈ b.wordLines.map " ".intercalate, IsLine text := by
    refine List.forall_mem_map.mpr (List.forall_mem_cons.mpr ⟨?_, List.forall_mem_map.mpr ?_⟩)
    · refine .intercalate (List.cons_ne_nil _ _) ?_
      exact List.forall_mem_cons.mpr ⟨by decide, List.forall_mem_cons.mpr ⟨h.name,
        List.forall_mem_singleton.mpr (Text.isWord_natural _).isLine⟩⟩
    · intro line hline
      obtain ⟨hne, hwords⟩ := h.lines line hline
      exact .intercalate (by simpa using hne) (List.forall_mem_map.mpr hwords)
  rw [SetBlock.text_eq_join]
  exact map_text_lines (fun t ht => ⟨(hlines t ht).2, (hlines t ht).getLast?_ne_return⟩) none

/-- A set that could be declared is read back. -/
theorem readsBack_of_declared {s : ActionSet} (hblock : s.block.Declared)
    (hs : ActionSet.ofBlock w s.block = .ok s) : ReadsBack w s := by
  have hleads : Leads w (s.block.wordLines.map " ".intercalate ++ [""]) ⟨.empty, .outside⟩
      fun u => u.place = .outside ∧ ∃ s', u.result.actionSets.sets = [s'] ∧ s'.name = s.name ∧
        s'.block.words = s.block.words := by
    refine leads_block hblock hs List.not_mem_nil fun s' hsame hwords => ?_
    exact leads_skipped (.inl rfl) (leads_nil ⟨rfl, s', rfl, hsame.name, hwords⟩)
  obtain ⟨u, hu, hplace, s', hsets, hname, hwords⟩ := hleads _ (map_text_block hblock.legible)
  refine ⟨u.result, s', ?_, hsets, hname, hwords⟩
  rw [read, hu]
  simp only [hplace, Place.missing?]

/-- No more lines than there are templates to come leave the reader in the block, unless they are as
many and none of them is skipped. -/
theorem place_of_templates {r : PropertySet} {name : Symbol} {missing : Nat} {lines : List Line}
    (hlength : lines.length ≤ missing) {done : List (List Symbol)} {s' : State}
    (h : foldSteps (readLine w .actionSets) ⟨r, .block (.set name missing done)⟩ lines = .ok s') :
    (∃ block, s'.place = .block block) ∨
      lines.length = missing ∧ (∀ l ∈ lines, isSkipped l = false) ∧
        continueBlock w .actionSets r (.inr (.set ⟨name, done ++ lines.map Line.tokens⟩)) =
          .ok s' := by
  induction lines generalizing missing done with
  | nil =>
    cases h
    exact .inl ⟨_, rfl⟩
  | cons line lines ih =>
    rw [List.length_cons] at hlength ⊢
    unfold foldSteps at h
    split at h
    · cases h
    · next s₁ hstep =>
      rcases readLine_eq_ok hstep with rfl | ⟨_, hgoals, -⟩ | ⟨hskip, hcontent⟩
      · -- A skipped line leaves fewer lines than there are templates to come.
        rcases ih (by omega) h with hin | ⟨hmissing, -⟩
        · exact .inl hin
        · omega
      · cases hgoals
      · simp only [readContent, Block.readLine] at hcontent
        split at hcontent
        · cases hcontent
        · next read hread =>
          split at hread
          · next hlast =>
            cases hread
            obtain rfl : lines = [] := List.length_eq_zero_iff.mp (by omega)
            cases h
            refine .inr ⟨by simp only [List.length_nil]; omega, ?_, hcontent⟩
            exact List.forall_mem_singleton.mpr hskip
          · cases hread
            cases hcontent
            rcases ih (by omega) h with hin | ⟨hmissing, hall, hdone⟩
            · exact .inl hin
            · refine .inr ⟨by omega, List.forall_mem_cons.mpr ⟨hskip, hall⟩, ?_⟩
              rw [List.map_cons, List.append_cons]
              exact hdone

/-- The line that opens the set is read only if the name is a word; then the number of templates is
known. -/
theorem of_readLine_header {b : SetBlock} (hname : IsLine b.name.name) {header : Line}
    (htext : header.text = " ".intercalate ["set", b.name.name, toString b.lines.length])
    {s : State} (h : readLine w .actionSets ⟨.empty, .outside⟩ header = .ok s) :
    Text.IsWord b.name.name.toList ∧ b.lines.length < 2 ^ 64 ∧
      (b.lines = [] ∨ ∃ name, s = ⟨.empty, .block (.set name b.lines.length [])⟩) := by
  have hnames : header.tokens.map Symbol.name =
      "set" :: (Text.wordsOf b.name.name ++ [toString b.lines.length]) := by
    rw [header.names_tokens, htext, Text.wordsOf_intercalate_cons_cons,
      Text.wordsOf_intercalate_cons_cons, String.intercalate_singleton,
      Text.wordsOf_of_isWord (by decide), Text.wordsOf_of_isWord (Text.isWord_natural _)]
    rfl
  have hskip : isSkipped header = false := by
    have hline : IsLine header.text := by
      rw [htext]
      refine .intercalate (List.cons_ne_nil _ _) ?_
      exact List.forall_mem_cons.mpr ⟨by decide, List.forall_mem_cons.mpr ⟨hname,
        List.forall_mem_singleton.mpr (Text.isWord_natural _).isLine⟩⟩
    refine isSkipped_eq_false_iff.mpr ⟨hline.trimmed_eq.1, ?_⟩
    rw [← Text.head?_wordsOf, ← header.names_tokens, hnames]
    change "set".toList.head? ≠ some '#'
    decide
  obtain ⟨keyword, words, htokens, hkeyword, hwords⟩ := List.map_eq_cons_iff.mp hnames
  rw [readLine_of_not_isSkipped _ hskip] at h
  simp only [readContent, readOutside, htokens, hkeyword] at h
  split at h
  · cases h
  · next read hread =>
    unfold openSet at hread
    split at hread
    · next name count hthree =>
      obtain rfl : words = [name, count] := (List.cons.inj hthree).2
      have hsplit : [name.name] ++ [count.name] =
          Text.wordsOf b.name.name ++ [toString b.lines.length] := hwords
      obtain ⟨hone, hcount⟩ := List.append_inj' hsplit rfl
      obtain ⟨chars, hchars, -⟩ := List.map_eq_singleton_iff.mp hone.symm
      have hword := Text.isWord_of_words_eq_singleton hname.1 hchars
      rw [(List.cons.inj hcount).1] at hread
      split at hread
      · cases hread
      · next hnone =>
        obtain ⟨hlength, hlt⟩ := Text.eq_of_natural?_toString hnone
        exact ⟨hword, hlt, .inl (List.length_eq_zero_iff.mp hlength.symm)⟩
      · next n hsome =>
        obtain ⟨hlength, hlt⟩ := Text.eq_of_natural?_toString hsome
        cases hread
        cases h
        exact ⟨hword, hlt, .inr ⟨name, by rw [← hlength]⟩⟩
    · cases hread

/-- A complete block is added as the set that it declares. -/
theorem exists_of_continueBlock {r : PropertySet} {b : SetBlock} {s' : State}
    (h : continueBlock w .actionSets r (.inr (.set b)) = .ok s') :
    ∃ s : ActionSet, s.block = b ∧
      s' = ⟨{ r with actionSets := (r.actionSets.add s).1 }, .outside⟩ := by
  simp only [continueBlock, addItem] at h
  split at h
  · cases h
  · next r' hadd =>
    cases h
    split at hadd
    · cases hadd
    · next hblock =>
      cases hadd
      obtain ⟨s, hs, rfl⟩ := addBlock_eq_ok_iff.mp hblock
      refine ⟨s, ?_, rfl⟩
      unfold ActionSet.ofBlock at hs
      split at hs <;> cases hs
      rfl

/-- A last line without characters leaves the reader in a block or outside of blocks. -/
theorem foldSteps_last {s s' : State} {last : Line} (hlast : last.text = "")
    (hplace : s.place ≠ .softGoals)
    (h : foldSteps (readLine w .actionSets) s [last] = .ok s') : s' = s := by
  have hblank : last.isBlank = true := by
    rw [Line.isBlank, Line.piece, hlast]
    rfl
  simp only [foldSteps, readLine, hblank, if_true] at h
  cases hs : s.place <;> simp_all

/-- The templates of a block that is read back are no comments. -/
theorem declared_of_readsBack {s : ActionSet} (hlegible : s.block.Legible) (h : ReadsBack w s) :
    s.block.Declared := by
  obtain ⟨set, s', hread, hsets, -, hwords⟩ := h
  obtain ⟨u, hu, hend, rfl⟩ := exists_of_read hread
  obtain ⟨header, rest, hlines, hheader, hrest⟩ :=
    List.map_eq_cons_iff.mp (map_text_block hlegible)
  obtain ⟨templates, lasts, rfl, htemplates, hlasts⟩ := List.map_eq_append_iff.mp hrest
  obtain ⟨last, rfl, hlast⟩ := List.map_eq_singleton_iff.mp hlasts
  rw [hlines, foldSteps] at hu
  split at hu
  · cases hu
  · next s₁ hopen =>
    obtain ⟨hname, hcount, hnone | ⟨name, rfl⟩⟩ := of_readLine_header hlegible.name hheader hopen
    · exact ⟨hname, hcount, by rw [hnone]; exact List.forall_mem_nil _⟩
    rw [foldSteps_append] at hu
    split at hu
    · cases hu
    · next s₂ hbody =>
      have hlength : templates.length = s.block.lines.length := by
        simpa [SetBlock.words] using congrArg List.length htemplates
      rcases place_of_templates (le_of_eq hlength) hbody with ⟨block, hplace⟩ | ⟨-, hall, hdone⟩
      · -- The file may not end in the block.
        obtain rfl := foldSteps_last hlast (by rw [hplace]; exact Place.noConfusion) hu
        rw [hplace] at hend
        cases hend
      · obtain ⟨s₃, hblock, rfl⟩ := exists_of_continueBlock hdone
        obtain rfl := foldSteps_last hlast Place.noConfusion hu
        obtain rfl : s₃ = s' := (List.cons.inj hsets).1
        have hcontent : ∀ ws ∈ s.block.words, IsContent ws := by
          rw [← hwords, SetBlock.words, hblock, List.nil_append, List.map_map]
          exact List.forall_mem_map.mpr fun l hl => isContent_tokens (hall l hl)
        exact ⟨hname, hcount, fun line hline => hcontent _ (List.mem_map_of_mem hline)⟩

/-- A set of a file is read back from its text exactly if its block could be declared in a file: its
name is a word, and no template of it is a comment.  If the arguments of all instances are words
that start no comment, this is so for every set of the file.

The first part has no hypothesis but that the file was read, so that it also says which sets are
lost.  The second part gives a condition on the arguments of classes alone, since the names and
templates of blocks outside of classes are words of a file already. -/
theorem readsBack_of_read {input : Input} {set : PropertySet}
    (h : read w .actionSets input = .ok set) :
    (∀ s ∈ set.actionSets.sets, ReadsBack w s ↔ s.block.Declared) ∧
      ((∀ args, FindsInstance w input args → ∀ arg ∈ args, IsContent [arg.name]) →
        ∀ s ∈ set.actionSets.sets, ReadsBack w s) := by
  have htraced := traced_of_read h
  have hiff : ∀ s ∈ set.actionSets.sets, ReadsBack w s ↔ s.block.Declared := fun s hs =>
    ⟨declared_of_readsBack ((htraced.origin s hs).legible fun _ hfound => hfound.isLine),
      fun hblock => readsBack_of_declared hblock (htraced.sets s hs)⟩
  exact ⟨hiff, fun hargs s hs => (hiff s hs).mpr ((htraced.origin s hs).declared hargs)⟩

/-! ## Calls -/

/-- A class of properties whose parameter is an action, with one instance. -/
def calls (action : String) : Input :=
  .ofText ("propertyclass c(a) \x7b\nset s 1\na\nproperty p\ns\nproperty r\n! s\n\x7d \x7b\nc("
    ++ action ++ ")\n\x7d\n")

/-- The instance for an action is read back. -/
theorem calls_readsBack : ∃ set, read .empty .actionSets (calls "go") = .ok set ∧
    set.actionSets.sets.map (fun s => s.block.text) = ["set s_go 1\ngo\n"] ∧
      (∀ s ∈ set.actionSets.sets, ReadsBack .empty s ↔ s.block.Declared) ∧
        ∀ s ∈ set.actionSets.sets, ReadsBack .empty s := by
  have hrun : (read .empty .actionSets (calls "go")).toOption.map (fun set =>
      set.actionSets.sets.map fun s => s.block.text) = some ["set s_go 1\ngo\n"] := by
    decide +kernel
  obtain ⟨set, hset, htexts⟩ := Option.map_eq_some_iff.mp hrun
  have hread := eq_ok_of_toOption hset
  have hlines : ∀ line ∈ (calls "go").lines, ∀ app ∈ application? line.piece.trim,
      ∀ arg ∈ app.args, IsContent [arg.name] := by decide +kernel
  have hreads := readsBack_of_read hread
  refine ⟨set, hread, htexts, hreads.1, hreads.2 ?_⟩
  rintro args ⟨n, r, d, line, app, -, hline, happ, rfl⟩
  exact hlines line (List.mem_of_getElem? hline) app happ

/-- The only template of the instance for an action that starts like a comment is a comment in its
text, which ends without a template. -/
theorem calls_not_readsBack : ∃ set, read .empty .actionSets (calls "#go") = .ok set ∧
    set.actionSets.sets.map (fun s => s.block.text) = ["set s_#go 1\n#go\n"] ∧
      ∀ s ∈ set.actionSets.sets, ¬ ReadsBack .empty s := by
  have hrun : (read .empty .actionSets (calls "#go")).toOption.map (fun set =>
      set.actionSets.sets.map fun s => s.block.text) = some ["set s_#go 1\n#go\n"] := by
    decide +kernel
  obtain ⟨set, hset, htexts⟩ := Option.map_eq_some_iff.mp hrun
  refine ⟨set, eq_ok_of_toOption hset, htexts, ?_⟩
  rintro s hs ⟨set', s', hread, -⟩
  have htext : s.block.text = "set s_#go 1\n#go\n" := by
    have hmem : s.block.text ∈ set.actionSets.sets.map fun s => s.block.text :=
      List.mem_map_of_mem hs
    rw [htexts] at hmem
    exact List.mem_singleton.mp hmem
  have hrefused : (read .empty .actionSets (.ofText "set s_#go 1\n#go\n")).isOk = false := by
    decide +kernel
  rw [htext] at hread
  rw [hread] at hrefused
  cases hrefused

end PropertyFile

end PlanConstraints

import PlanConstraints.Proofs.Property.Writing

set_option autoImplicit false

/-!
# What is read from a property file, apart from where it stands

Names remember the place they were read from.  Without these places (`PropertySet.plain`), a line of
a property file is read by its text alone: two states of the reader that are the same apart from
places are led to such states by two lines of one text, or both lines are refused
(`sameUpTo_readLine`).
-/

namespace PlanConstraints

/-! ## Results up to a function -/

section

variable {ε α β γ δ : Type}

/-- Both fail, or both have results, which are the same up to `f`. -/
def SameUpTo (f : α → β) (x y : Except ε α) : Prop := x.toOption.map f = y.toOption.map f

@[simp] theorem sameUpTo_ok_iff {f : α → β} {a b : α} :
    SameUpTo f (.ok a : Except ε α) (.ok b) ↔ f a = f b := Option.some_inj

@[simp] theorem sameUpTo_error (f : α → β) (e e' : ε) : SameUpTo f (.error e) (.error e') := rfl

theorem SameUpTo.symm {f : α → β} {x y : Except ε α} (h : SameUpTo f x y) : SameUpTo f y x :=
  Eq.symm h

theorem SameUpTo.trans {f : α → β} {x y z : Except ε α} (h : SameUpTo f x y)
    (h' : SameUpTo f y z) : SameUpTo f x z := Eq.trans h h'

theorem SameUpTo.exists_ok {f : α → β} {x y : Except ε α} (h : SameUpTo f x y) {a : α}
    (hx : x = .ok a) : ∃ b, y = .ok b ∧ f b = f a := by
  subst hx
  cases y with
  | error e => cases h
  | ok b => exact ⟨b, rfl, (sameUpTo_ok_iff.mp h).symm⟩

/-- Results on either side that have such results on the other. -/
theorem sameUpTo_of_forall {f : α → β} {x y : Except ε α}
    (h : ∀ a, x = .ok a → ∃ b, y = .ok b ∧ f b = f a)
    (h' : ∀ b, y = .ok b → ∃ a, x = .ok a ∧ f a = f b) : SameUpTo f x y := by
  cases x with
  | ok a =>
    obtain ⟨b, rfl, hb⟩ := h a rfl
    exact sameUpTo_ok_iff.mpr hb.symm
  | error e =>
    cases y with
    | error e' => rfl
    | ok b =>
      obtain ⟨a, ha, -⟩ := h' b rfl
      cases ha

theorem SameUpTo.cases {f : α → β} {x y : Except ε α} (h : SameUpTo f x y) :
    (∃ e e', x = .error e ∧ y = .error e') ∨ ∃ a b, x = .ok a ∧ y = .ok b ∧ f a = f b := by
  cases x with
  | error e =>
    cases y with
    | error e' => exact .inl ⟨e, e', rfl, rfl⟩
    | ok b => cases h
  | ok a =>
    obtain ⟨b, hb, hab⟩ := h.exists_ok rfl
    exact .inr ⟨a, b, rfl, hb, hab.symm⟩

theorem SameUpTo.foldSteps {f : α → β} {p : γ → δ} {step : α → γ → Except ε α}
    (hstep : ∀ a b x y, f a = f b → p x = p y → SameUpTo f (step a x) (step b y)) {xs ys : List γ}
    (hxs : xs.map p = ys.map p) {a b : α} (hab : f a = f b) :
    SameUpTo f (foldSteps step a xs) (foldSteps step b ys) := by
  induction xs generalizing ys a b with
  | nil =>
    obtain rfl := List.map_eq_nil_iff.mp hxs.symm
    exact sameUpTo_ok_iff.mpr hab
  | cons x xs ih =>
    obtain ⟨y, ys, rfl, hy, hys⟩ := List.map_eq_cons_iff.mp hxs.symm
    unfold PlanConstraints.foldSteps
    obtain ⟨e, e', hx, hy⟩ | ⟨a, b, hx, hy, hab⟩ := (hstep a b x y hab hy.symm).cases
    · rw [hx, hy]
      rfl
    · rw [hx, hy]
      exact ih hys.symm hab

end

/-! ## Without places -/

/-- The name alone. -/
def Symbol.plain (s : Symbol) : Symbol := .ofName s.name

@[simp] theorem Symbol.name_plain (s : Symbol) : s.plain.name = s.name := rfl

theorem Symbol.map_plain_eq_iff {ss ts : List Symbol} :
    ss.map Symbol.plain = ts.map Symbol.plain ↔ ss.map Symbol.name = ts.map Symbol.name := by
  have hplain : Symbol.plain = Symbol.ofName ∘ Symbol.name := rfl
  have hinj : Function.Injective Symbol.ofName := fun a b h => congrArg Symbol.name h
  rw [hplain, ← List.map_map, ← List.map_map, (List.map_injective_iff.mpr hinj).eq_iff]

def SetBlock.plain (b : SetBlock) : SetBlock :=
  ⟨b.name.plain, b.lines.map (List.map Symbol.plain)⟩

def ActionSet.plain (s : ActionSet) : ActionSet := { s with block := s.block.plain }

def ActionSets.plain (c : ActionSets) : ActionSets := ⟨c.sets.map ActionSet.plain⟩

def Property.plain (p : Property) : Property :=
  ⟨p.name.plain, p.formula.map Symbol.plain, p.soft⟩

/-- The declarations without the places where their names were read. -/
def PropertySet.plain (s : PropertySet) : PropertySet :=
  ⟨s.actionSets.plain, s.properties.map Property.plain, s.temporal.map Property.plain, s.softGoals⟩

/-! ## Formulas -/

namespace Formula

/-- Words of the same names are read as formulas of the same names. -/
theorem exists_ofWords_of_names {words words' : List Symbol}
    (hnames : words'.map Symbol.name = words.map Symbol.name) {f : Formula Symbol}
    (h : ofWords words = .ok f) :
    ∃ g, ofWords words' = .ok g ∧ g.map Symbol.plain = f.map Symbol.plain := by
  obtain ⟨hwords, -⟩ := words_of_ofWords h
  have hatoms : (f.map nameOf).NamesAtoms := by
    intro a ha
    rw [atoms_map] at ha
    obtain ⟨b, hb, rfl⟩ := List.mem_map.mp ha
    exact ofWord_eq_atom_iff.mpr (notMem_reservedWords h hb)
  have hspelled : words'.map (fun w => spelledOut (nameOf w)) = (f.map nameOf).words := by
    rw [words_map_nameOf, ← hwords]
    simpa [Function.comp_def] using congrArg (List.map spelledOut) hnames
  obtain ⟨g, hg, hread⟩ := exists_read hatoms hspelled []
  rw [List.append_nil] at hread
  refine ⟨g, by rw [ofWords, hread], ?_⟩
  have hplain := congrArg (Formula.map Symbol.ofName) hg
  rwa [map_map, map_map] at hplain

theorem sameUpTo_ofWords {words words' : List Symbol}
    (h : words.map Symbol.name = words'.map Symbol.name) :
    SameUpTo (Formula.map Symbol.plain) (ofWords words) (ofWords words') :=
  sameUpTo_of_forall (fun _ => exists_ofWords_of_names h.symm)
    fun _ => exists_ofWords_of_names h

theorem sameUpTo_propositionalOfWords {words words' : List Symbol}
    (h : words.map Symbol.name = words'.map Symbol.name) :
    SameUpTo (Formula.map Symbol.plain) (propositionalOfWords words)
      (propositionalOfWords words') := by
  have hprop {f g : Formula Symbol} (hfg : g.map Symbol.plain = f.map Symbol.plain)
      (hf : f.isPropositional = true) : g.isPropositional = true := by
    rw [← isPropositional_map Symbol.plain, hfg, isPropositional_map, hf]
  refine sameUpTo_of_forall (fun f hf => ?_) fun f hf => ?_
  all_goals
    obtain ⟨hread, hf⟩ := propositionalOfWords_eq_ok_iff.mp hf
  · obtain ⟨g, hg, hfg⟩ := exists_ofWords_of_names h.symm hread
    exact ⟨g, propositionalOfWords_eq_ok_iff.mpr ⟨hg, hprop hfg hf⟩, hfg⟩
  · obtain ⟨g, hg, hfg⟩ := exists_ofWords_of_names h hread
    exact ⟨g, propositionalOfWords_eq_ok_iff.mpr ⟨hg, hprop hfg hf⟩, hfg⟩

end Formula

/-! ## Action sets -/

theorem SetBlock.names_lines {b b' : SetBlock} (h : b.plain = b'.plain) :
    b.lines.map (List.map Symbol.name) = b'.lines.map (List.map Symbol.name) := by
  have hlines := congrArg (fun b => b.lines.map (List.map Symbol.name)) h
  simpa [SetBlock.plain, Function.comp_def] using hlines

theorem sameUpTo_ofBlock (w : World) {b b' : SetBlock} (h : b.plain = b'.plain) :
    SameUpTo ActionSet.plain (ActionSet.ofBlock w b) (ActionSet.ofBlock w b') := by
  have hblock {b : SetBlock} {s : ActionSet} (hs : ActionSet.ofBlock w b = .ok s) :
      s.block = b := by
    unfold ActionSet.ofBlock at hs
    split at hs <;> cases hs
    rfl
  have half {b b' : SetBlock} (h : b.plain = b'.plain) (s : ActionSet)
      (hs : ActionSet.ofBlock w b = .ok s) :
      ∃ s', ActionSet.ofBlock w b' = .ok s' ∧ s'.plain = s.plain := by
    refine ⟨_, ActionSet.ofBlock_of_names (SetBlock.names_lines h) hs, ?_⟩
    rw [ActionSet.plain, ActionSet.plain, hblock hs, h]
  exact sameUpTo_of_forall (half h) (half h.symm)

namespace ActionSets

@[simp] theorem contains_plain (c : ActionSets) (name : String) :
    c.plain.contains name = c.contains name := by
  rw [contains, get?, plain, List.find?_map, Option.isSome_map]
  rfl

theorem plain_add (c : ActionSets) (s : ActionSet) :
    (c.add s).1.plain = (c.plain.add s.plain).1 := by
  have hname : s.plain.name = s.name := rfl
  unfold add
  rw [contains_plain, hname]
  split
  · rfl
  · simp [plain]

end ActionSets

namespace SetBlock

theorem plain_argumentFor (params args : List Symbol) (word : Symbol) :
    (argumentFor params args word).plain =
      argumentFor (params.map Symbol.plain) (args.map Symbol.plain) word.plain := by
  unfold argumentFor
  rw [List.zip_map, List.find?_map]
  have hname : ((fun pair : Symbol × Symbol => decide (pair.1.name = word.plain.name)) ∘
      Prod.map Symbol.plain Symbol.plain) = fun pair => decide (pair.1.name = word.name) := rfl
  rw [hname]
  cases (params.zip args).find? fun pair => decide (pair.1.name = word.name) <;> rfl

theorem instanceName_map_plain (name : String) (args : List Symbol) :
    instanceName name (args.map Symbol.plain) = instanceName name args := by
  rw [instanceName, List.foldl_map]
  rfl

theorem plain_instantiate (b : SetBlock) (params args : List Symbol) :
    (b.instantiate params args).plain =
      b.plain.instantiate (params.map Symbol.plain) (args.map Symbol.plain) := by
  simp only [plain, instantiate, instanceName_map_plain, List.map_map, Function.comp_def,
    plain_argumentFor]
  rfl

end SetBlock

theorem Property.plain_withSuffix (p : Property) (suffix : String) :
    (p.withSuffix suffix).plain = p.plain.withSuffix suffix := by
  simp only [plain, withSuffix, Formula.addSuffix, Formula.map_map]
  rfl

namespace PropertyFile

/-! ## Lines -/

section

variable {line line' : Line} {p q : Piece}

theorem names_tokens_congr (h : line.text = line'.text) :
    line.tokens.map Symbol.name = line'.tokens.map Symbol.name := by
  rw [line.names_tokens, line'.names_tokens, h]

theorem chars_piece_congr (h : line.text = line'.text) : line.piece.chars = line'.piece.chars :=
  congrArg String.toList h

theorem chars_trim_congr (h : p.chars = q.chars) : p.trim.chars = q.trim.chars := by
  rw [p.chars_trim, q.chars_trim, h]

theorem isBlank_congr (h : line.text = line'.text) : line.isBlank = line'.isBlank := by
  rw [Line.isBlank, Piece.isBlank, Line.piece, Line.isBlank, Piece.isBlank, Line.piece, h]

theorem trimmed_congr (h : line.text = line'.text) : line.trimmed = line'.trimmed := by
  rw [line.trimmed_eq, line'.trimmed_eq, h]

theorem isSkipped_congr (h : line.text = line'.text) : isSkipped line = isSkipped line' := by
  rw [isSkipped, isSkipped, isBlank_congr h, line.piece.chars_trim, line'.piece.chars_trim,
    Line.piece, Line.piece, h]

/-! ## Names with arguments -/

theorem chars_splitCommas (input : Input) (start : Nat) (cs : List Char) :
    (splitCommas input start cs).map Piece.chars = Text.split ',' cs := by
  induction cs generalizing start with
  | nil => rfl
  | cons c cs ih =>
    rw [splitCommas, Text.split, ← ih (start + c.utf8Size)]
    split
    · rfl
    · cases splitCommas input (start + c.utf8Size) cs <;> rfl

theorem names_commaList (p : Piece) :
    (commaList p).map Symbol.name =
      ((Text.split ',' p.chars).filter fun piece => !piece.all Text.isBlank).map fun piece =>
        String.ofList (Text.trim piece) := by
  have htrim (piece : Piece) : String.ofList (Text.trim piece.chars) = piece.trim.text := by
    rw [Piece.text, piece.chars_trim]
  rw [commaList, ← chars_splitCommas p.input p.start, List.filter_map, List.map_map, List.map_map]
  simp only [Function.comp_def, htrim]
  rfl

/-- A name with arguments without its places. -/
def Application.plain (app : Application) : String × List Symbol × List Char :=
  (app.name.text, app.args.map Symbol.plain, app.rest.chars)

/-- A name with arguments is taken apart by its characters. -/
theorem application?_congr (h : p.chars = q.chars) :
    (application? p).map Application.plain = (application? q).map Application.plain := by
  have hlist : (p.drop (p.chars.takeWhile isClassNameChar).length).trimLeft.chars =
      (q.drop (q.chars.takeWhile isClassNameChar).length).trimLeft.chars := by
    rw [Piece.chars_trimLeft, Piece.chars_trimLeft, Piece.drop, Piece.drop, h]
  unfold application?
  simp only [h] at hlist ⊢
  generalize (p.drop _).trimLeft = r at hlist ⊢
  generalize (q.drop _).trimLeft = r' at hlist ⊢
  simp only [hlist, Piece.drop]
  split
  · split
    · have hargs (p q : Piece) (h : p.chars = q.chars) :
          (commaList p).map Symbol.plain = (commaList q).map Symbol.plain := by
        rw [Symbol.map_plain_eq_iff, names_commaList, names_commaList, h]
      simp only [Option.map_some, Application.plain]
      rw [hargs ⟨r.input, _, _⟩ ⟨r'.input, _, _⟩ rfl]
      rfl
    · rfl
  · rfl

theorem exists_application? (h : p.chars = q.chars) :
    (application? p = none ∧ application? q = none) ∨
      ∃ app app', application? p = some app ∧ application? q = some app' ∧
        app.plain = app'.plain := by
  have hcongr := application?_congr h
  cases hp : application? p <;> cases hq : application? q <;> simp_all

end

/-! ## The state of the reader -/

/-- The line by itself. -/
def plainLine (line : Line) : Line := ⟨.ofText line.text, 1, 0, line.text⟩

def Block.plain : Block → Block
  | .set name missing lines => .set name.plain missing (lines.map (List.map Symbol.plain))
  | .property name soft => .property name.plain soft

def Item.plain : Item → Item
  | .set block => .set block.plain
  | .property p => .property p.plain

/-- What a line has led to, without places. -/
def plainRead : Block ⊕ Item → Block ⊕ Item := Sum.map Block.plain Item.plain

def ClassDraft.plain (d : ClassDraft) : ClassDraft where
  header := plainLine d.header
  name := d.name
  soft := d.soft
  params := d.params.map Symbol.plain
  blocks := d.blocks.map SetBlock.plain
  properties := d.properties.map Property.plain
  instanceBlocks := d.instanceBlocks.map SetBlock.plain
  instanceProperties := d.instanceProperties.map Property.plain

def Place.plain : Place → Place
  | .outside => .outside
  | .block b => .block b.plain
  | .softGoals => .softGoals
  | .classHead d => .classHead d.plain
  | .classBody d b => .classBody d.plain (b.map Block.plain)
  | .instancesHead d => .instancesHead d.plain
  | .instances d => .instances d.plain

/-- The state without the places where its names were read. -/
def State.plain (s : State) : State := ⟨s.result.plain, s.place.plain⟩

/-! ## Blocks -/

section

variable {w : World} {dialect : Dialect} {r r' : PropertySet} {line line' : Line}
  {words words' : List Symbol}

/-- What is read from names, wherever they stand, is read from the names alone. -/
theorem sameUpTo_of_plain (opened : Line → List Symbol → Except FileError (Block ⊕ Item))
    (hplain : ∀ line line' words,
      SameUpTo plainRead (opened line words) (opened line' (words.map Symbol.plain)))
    (h : words.map Symbol.name = words'.map Symbol.name) :
    SameUpTo plainRead (opened line words) (opened line' words') := by
  have hleft := hplain line line words
  have hright := hplain line' line words'
  rw [← Symbol.map_plain_eq_iff.mpr h] at hright
  exact hleft.trans hright.symm

theorem sameUpTo_openSet (h : words.map Symbol.name = words'.map Symbol.name) :
    SameUpTo plainRead (openSet line words) (openSet line' words') := by
  refine sameUpTo_of_plain openSet (fun line line' words => ?_) h
  match words with
  | [_, name, count] =>
    simp only [openSet, List.map_cons, List.map_nil, Symbol.name_plain]
    split <;> rfl
  | [] | [_] | [_, _] | _ :: _ :: _ :: _ :: _ => rfl

theorem sameUpTo_openProperty (h : words.map Symbol.name = words'.map Symbol.name) (soft : Bool) :
    SameUpTo plainRead (openProperty line words soft) (openProperty line' words' soft) := by
  refine sameUpTo_of_plain (openProperty · · soft) (fun line line' words => ?_) h
  match words with
  | [_, _] | [] | [_] | _ :: _ :: _ :: _ => rfl

theorem sameUpTo_readBlock {b b' : Block} (hb : b.plain = b'.plain) (h : line.text = line'.text)
    (propositional : Bool) :
    SameUpTo plainRead (b.readLine propositional line) (b'.readLine propositional line') := by
  have hwords := names_tokens_congr h
  cases b with
  | set name missing lines =>
    cases b' with
    | property => cases hb
    | set name' missing' lines' =>
      obtain ⟨hname, rfl, hlines⟩ := Block.set.inj hb
      have hadded : (lines ++ [line.tokens]).map (List.map Symbol.plain) =
          (lines' ++ [line'.tokens]).map (List.map Symbol.plain) := by
        rw [List.map_append, List.map_append, hlines, List.map_singleton, List.map_singleton,
          Symbol.map_plain_eq_iff.mpr hwords]
      unfold Block.readLine
      simp only
      split
      · simp [plainRead, Item.plain, SetBlock.plain, hname, hadded]
      · simp [plainRead, Block.plain, hname, hadded]
  | property name soft =>
    cases b' with
    | set => cases hb
    | property name' soft' =>
      obtain ⟨hname, rfl⟩ := Block.property.inj hb
      have hformula : SameUpTo (Formula.map Symbol.plain)
          (if propositional then Formula.propositionalOfWords line.tokens
            else Formula.ofWords line.tokens)
          (if propositional then Formula.propositionalOfWords line'.tokens
            else Formula.ofWords line'.tokens) := by
        split
        · exact Formula.sameUpTo_propositionalOfWords hwords
        · exact Formula.sameUpTo_ofWords hwords
      unfold Block.readLine
      obtain ⟨e, e', hread, hread'⟩ | ⟨f, g, hread, hread', hfg⟩ := hformula.cases
      · simp only [hread, hread']
        rfl
      · simp only [hread, hread']
        simp [plainRead, Item.plain, Property.plain, hname, hfg]

theorem sameUpTo_addBlock (hr : r.plain = r'.plain) {b b' : SetBlock} (hb : b.plain = b'.plain) :
    SameUpTo PropertySet.plain (addBlock w r b) (addBlock w r' b') := by
  unfold addBlock
  obtain ⟨e, e', hread, hread'⟩ | ⟨s, s', hread, hread', hs⟩ := (sameUpTo_ofBlock w hb).cases
  · rw [hread, hread']
    rfl
  · obtain ⟨hsets, hproperties, htemporal, hgoals⟩ := PropertySet.mk.inj hr
    simp only [hread, hread', sameUpTo_ok_iff, PropertySet.plain, ActionSets.plain_add, hsets, hs,
      hproperties, htemporal, hgoals]

theorem sameUpTo_addItem (hr : r.plain = r'.plain) {item item' : Item}
    (hitem : item.plain = item'.plain) :
    SameUpTo PropertySet.plain (addItem w dialect r item) (addItem w dialect r' item') := by
  cases item with
  | set b =>
    cases item' with
    | property => cases hitem
    | set b' =>
      unfold addItem
      obtain ⟨e, e', hadd, hadd'⟩ | ⟨a, b, hadd, hadd', hab⟩ :=
        (sameUpTo_addBlock (w := w) hr (Item.set.inj hitem)).cases
      · simp only [hadd, hadd', sameUpTo_error]
      · simp only [hadd, hadd', sameUpTo_ok_iff, hab]
  | property p =>
    cases item' with
    | set => cases hitem
    | property p' =>
      obtain ⟨hsets, hproperties, htemporal, hgoals⟩ := PropertySet.mk.inj hr
      have hp := Item.property.inj hitem
      cases dialect <;>
        simp [addItem, PropertySet.plain, hsets, hproperties, htemporal, hgoals, hp]

theorem sameUpTo_continueBlock (hr : r.plain = r'.plain) {read read' : Block ⊕ Item}
    (hread : plainRead read = plainRead read') :
    SameUpTo State.plain (continueBlock w dialect r read) (continueBlock w dialect r' read') := by
  cases read with
  | inl b =>
    cases read' with
    | inr => cases hread
    | inl b' =>
      simp [continueBlock, State.plain, Place.plain, hr, Sum.inl.inj hread]
  | inr item =>
    cases read' with
    | inl => cases hread
    | inr item' =>
      unfold continueBlock
      have hsame : SameUpTo PropertySet.plain (addItem w dialect r item)
          (addItem w dialect r' item') := sameUpTo_addItem hr (Sum.inr.inj hread)
      obtain ⟨e, e', hadd, hadd'⟩ | ⟨a, b, hadd, hadd', hab⟩ := hsame.cases
      · simp only [hadd, hadd', sameUpTo_error]
      · simp only [hadd, hadd', sameUpTo_ok_iff, State.plain, hab]

end

/-! ## Classes -/

namespace ClassDraft

theorem plain_addItem (d : ClassDraft) (item : Item) :
    (d.addItem item).plain = d.plain.addItem item.plain := by
  cases item <;> simp [addItem, plain, Item.plain, Property.plain]

theorem plain_continueBlock (d : ClassDraft) (read : Block ⊕ Item) :
    (d.continueBlock read).plain = d.plain.continueBlock (plainRead read) := by
  cases read with
  | inl b => rfl
  | inr item => simp [continueBlock, Place.plain, plain_addItem, plainRead]

theorem suffix_map_plain (args : List Symbol) : suffix (args.map Symbol.plain) = suffix args :=
  SetBlock.instanceName_map_plain "" args

theorem plain_addInstance (d : ClassDraft) (args : List Symbol) :
    (d.addInstance args).plain = d.plain.addInstance (args.map Symbol.plain) := by
  simp [addInstance, plain, SetBlock.plain_instantiate, Property.plain_withSuffix,
    suffix_map_plain, Function.comp_def]

section

variable {w : World} {r r' : PropertySet} {d d' : ClassDraft} {line line' : Line}

theorem sameUpTo_ofHeader (h : line.text = line'.text) (soft : Bool) :
    SameUpTo Place.plain (ofHeader line soft) (ofHeader line' soft) := by
  have htrim := chars_trim_congr (chars_piece_congr h)
  have hbehind : (line.piece.trim.drop (line.piece.trim.chars.takeWhile fun c =>
        !Text.isBlank c).length).trimLeft.chars =
      (line'.piece.trim.drop (line'.piece.trim.chars.takeWhile fun c =>
        !Text.isBlank c).length).trimLeft.chars := by
    rw [Piece.chars_trimLeft, Piece.chars_trimLeft, Piece.drop, Piece.drop, htrim]
  unfold ofHeader
  simp only
  obtain ⟨hnone, hnone'⟩ | ⟨app, app', happ, happ', hsame⟩ := exists_application? hbehind
  · rw [hnone, hnone']
    rfl
  · rw [happ, happ']
    obtain ⟨hname, hargs, hrest⟩ : app.name.text = app'.name.text ∧
        app.args.map Symbol.plain = app'.args.map Symbol.plain ∧
          app.rest.chars = app'.rest.chars := by
      simpa [Application.plain] using hsame
    simp only [Piece.chars_trimLeft, hrest]
    split <;> simp [Place.plain, plain, plainLine, h, hname, hargs]

theorem isEmpty_properties (hd : d.plain = d'.plain) :
    d.properties.isEmpty = d'.properties.isEmpty := by
  have hproperties := congrArg (fun d => d.properties.isEmpty) hd
  simpa [plain] using hproperties

theorem sameUpTo_closeBody (hd : d.plain = d'.plain) (h : line.text = line'.text) :
    SameUpTo Place.plain (d.closeBody line) (d'.closeBody line') := by
  have htext : (line.piece.trim.drop 1).trim.text = (line'.piece.trim.drop 1).trim.text := by
    refine congrArg String.ofList (chars_trim_congr ?_)
    rw [Piece.drop, Piece.drop, chars_trim_congr (chars_piece_congr h)]
  unfold closeBody
  rw [htext, isEmpty_properties hd]
  split
  · split <;> simp [Place.plain, hd]
  · split <;> simp [Place.plain, hd]
  · rfl

/-- What the words of a line open in the body of a class. -/
def openedInBody (line : Line) : Except FileError (Block ⊕ Item) :=
  match line.tokens with
  | [] => .error (.expectedClosing line)
  | word :: words =>
    match word.name with
    | "set" => openSet line (word :: words)
    | "property" => openProperty line (word :: words) false
    | "soft-property" => openProperty line (word :: words) true
    | _ => .error (.notInBody word)

theorem readBody_eq (d : ClassDraft) (line : Line) :
    d.readBody line =
      if line.piece.trim.chars.head? = some '\x7d' then d.closeBody line
      else
        match openedInBody line with
        | .error e => .error e
        | .ok read => .ok (d.continueBlock read) := rfl

theorem sameUpTo_openedInBody (h : line.text = line'.text) :
    SameUpTo plainRead (openedInBody line) (openedInBody line') := by
  have hwords := names_tokens_congr h
  unfold openedInBody
  cases htokens : line.tokens with
  | nil =>
    rw [htokens] at hwords
    rw [List.map_eq_nil_iff.mp hwords.symm]
    rfl
  | cons word words =>
    rw [htokens] at hwords
    obtain ⟨word', words', htokens', hword, -⟩ := List.map_eq_cons_iff.mp hwords.symm
    rw [htokens'] at hwords ⊢
    simp only [hword]
    split
    · exact sameUpTo_openSet hwords
    · exact sameUpTo_openProperty hwords false
    · exact sameUpTo_openProperty hwords true
    · rfl

theorem sameUpTo_readBody (hd : d.plain = d'.plain) (h : line.text = line'.text) :
    SameUpTo Place.plain (d.readBody line) (d'.readBody line') := by
  rw [readBody_eq, readBody_eq, chars_trim_congr (chars_piece_congr h)]
  split
  · exact sameUpTo_closeBody hd h
  · obtain ⟨e, e', hread, hread'⟩ | ⟨read, read', hread, hread', hsame⟩ :=
      (sameUpTo_openedInBody h).cases
    · rw [hread, hread']
      rfl
    · simp only [hread, hread', sameUpTo_ok_iff, plain_continueBlock, hd, hsame]

theorem sameUpTo_readInstance (hd : d.plain = d'.plain) (h : line.text = line'.text) :
    SameUpTo plain (d.readInstance line) (d'.readInstance line') := by
  have hdname : d.name = d'.name := by
    simpa [plain] using congrArg (fun d => d.name) hd
  have hparams : d.params.length = d'.params.length := by
    simpa [plain] using congrArg (fun d => d.params.length) hd
  unfold readInstance
  obtain ⟨hnone, hnone'⟩ | ⟨app, app', happ, happ', hsame⟩ :=
    exists_application? (chars_trim_congr (chars_piece_congr h))
  · rw [hnone, hnone']
    rfl
  · rw [happ, happ']
    obtain ⟨hname, hargs, hrest⟩ : app.name.text = app'.name.text ∧
        app.args.map Symbol.plain = app'.args.map Symbol.plain ∧
          app.rest.chars = app'.rest.chars := by
      simpa [Application.plain] using hsame
    have hlength : app.args.length = app'.args.length := by
      simpa using congrArg List.length hargs
    simp only [hname, hrest, hlength, hdname, hparams]
    split
    · rfl
    · split
      · rfl
      · split
        · rfl
        · rw [sameUpTo_ok_iff, plain_addInstance, plain_addInstance, hd, hargs]

theorem sameUpTo_finish (hd : d.plain = d'.plain) (hr : r.plain = r'.plain) :
    SameUpTo PropertySet.plain (d.finish w r) (d'.finish w r') := by
  have hblocks : d.instanceBlocks.map SetBlock.plain = d'.instanceBlocks.map SetBlock.plain :=
    congrArg ClassDraft.instanceBlocks hd
  have hproperties : d.instanceProperties.map Property.plain =
      d'.instanceProperties.map Property.plain := congrArg ClassDraft.instanceProperties hd
  have hstep : ∀ (r r' : PropertySet) (b b' : SetBlock), r.plain = r'.plain →
      b.plain = b'.plain → SameUpTo PropertySet.plain (addBlock w r b) (addBlock w r' b') :=
    fun _ _ _ _ hr hb => sameUpTo_addBlock hr hb
  unfold finish
  obtain ⟨e, e', hadd, hadd'⟩ | ⟨a, b, hadd, hadd', hab⟩ :=
    (SameUpTo.foldSteps hstep hblocks hr).cases
  · rw [hadd, hadd']
    rfl
  · obtain ⟨hsets, hadded, htemporal, hgoals⟩ := PropertySet.mk.inj hab
    simp [hadd, hadd', PropertySet.plain, hsets, hadded, htemporal, hgoals, hproperties]

end

end ClassDraft

/-! ## Lines -/

section

variable {w : World} {dialect : Dialect} {r r' : PropertySet} {s s' : State} {line line' : Line}

/-- What becomes of the state when a line outside of classes opens a block. -/
def openBlock (w : World) (dialect : Dialect) (r : PropertySet) :
    Except FileError (Block ⊕ Item) → Except FileError State
  | .error e => .error e
  | .ok read => continueBlock w dialect r read

theorem sameUpTo_openBlock (hr : r.plain = r'.plain) {x y : Except FileError (Block ⊕ Item)}
    (h : SameUpTo plainRead x y) :
    SameUpTo State.plain (openBlock w dialect r x) (openBlock w dialect r' y) := by
  obtain ⟨e, e', rfl, rfl⟩ | ⟨read, read', rfl, rfl, hread⟩ := h.cases
  · rfl
  · exact sameUpTo_continueBlock hr hread

/-- What becomes of the state when a line opens a class. -/
def openClass (dialect : Dialect) (r : PropertySet) (word : Symbol) (x : Except FileError Place) :
    Except FileError State :=
  match dialect with
  | .temporal => .error (.classDialect word)
  | .actionSets =>
    match x with
    | .error e => .error e
    | .ok place => .ok ⟨r, place⟩

theorem sameUpTo_openClass (hr : r.plain = r'.plain) (word word' : Symbol)
    {x y : Except FileError Place} (h : SameUpTo Place.plain x y) :
    SameUpTo State.plain (openClass dialect r word x) (openClass dialect r' word' y) := by
  cases dialect with
  | temporal => rfl
  | actionSets =>
    obtain ⟨e, e', rfl, rfl⟩ | ⟨place, place', rfl, rfl, hplace⟩ := h.cases
    · rfl
    · simp only [openClass, sameUpTo_ok_iff, State.plain, hr, hplace]

theorem readOutside_eq {word : Symbol} {words : List Symbol} (h : line.tokens = word :: words) :
    readOutside w dialect r line =
      match word.name with
      | "set" => openBlock w dialect r (openSet line line.tokens)
      | "property" => openBlock w dialect r (openProperty line line.tokens false)
      | "soft-property" => openBlock w dialect r (openProperty line line.tokens true)
      | "propertyclass" => openClass dialect r word (ClassDraft.ofHeader line false)
      | "soft-propertyclass" => openClass dialect r word (ClassDraft.ofHeader line true)
      | "soft-goals" => .ok ⟨r, .softGoals⟩
      | _ => .error (.notABlock word) := by
  unfold readOutside
  rw [h]
  rfl

theorem sameUpTo_readOutside (hr : r.plain = r'.plain) (h : line.text = line'.text) :
    SameUpTo State.plain (readOutside w dialect r line) (readOutside w dialect r' line') := by
  have hwords := names_tokens_congr h
  cases htokens : line.tokens with
  | nil =>
    rw [htokens] at hwords
    unfold readOutside
    rw [htokens, List.map_eq_nil_iff.mp hwords.symm]
    simp [State.plain, hr]
  | cons word words =>
    obtain ⟨word', words', htokens', hword, -⟩ := List.map_eq_cons_iff.mp (htokens ▸ hwords).symm
    rw [readOutside_eq htokens, readOutside_eq htokens', hword]
    split
    · exact sameUpTo_openBlock hr (sameUpTo_openSet hwords)
    · exact sameUpTo_openBlock hr (sameUpTo_openProperty hwords false)
    · exact sameUpTo_openBlock hr (sameUpTo_openProperty hwords true)
    · exact sameUpTo_openClass hr word word' (ClassDraft.sameUpTo_ofHeader h false)
    · exact sameUpTo_openClass hr word word' (ClassDraft.sameUpTo_ofHeader h true)
    · simp [State.plain, hr]
    · rfl

variable {d d' : ClassDraft}

/-- A line of a class, in a block of it or between two of them. -/
theorem sameUpTo_readClassBody (hr : r.plain = r'.plain) (hd : d.plain = d'.plain)
    {block block' : Option Block} (hblock : block.map Block.plain = block'.map Block.plain)
    (h : line.text = line'.text) :
    SameUpTo State.plain (readContent w dialect ⟨r, .classBody d block⟩ line)
      (readContent w dialect ⟨r', .classBody d' block'⟩ line') := by
  cases block with
  | none =>
    obtain rfl := Option.map_eq_none_iff.mp hblock.symm
    unfold readContent
    obtain ⟨e, e', hread, hread'⟩ | ⟨place, place', hread, hread', hsame⟩ :=
      (ClassDraft.sameUpTo_readBody hd h).cases
    · simp only [hread, hread', sameUpTo_error]
    · simp only [hread, hread', sameUpTo_ok_iff, State.plain, hr, hsame]
  | some b =>
    obtain ⟨b', rfl, hb⟩ := Option.map_eq_some_iff.mp hblock.symm
    unfold readContent
    obtain ⟨e, e', hread, hread'⟩ | ⟨read, read', hread, hread', hsame⟩ :=
      (sameUpTo_readBlock hb.symm h true).cases
    · simp only [hread, hread', sameUpTo_error]
    · simp only [hread, hread', sameUpTo_ok_iff, State.plain, ClassDraft.plain_continueBlock, hr,
        hd, hsame]

/-- A line among the instances of a class: one more of them, or the end of the class. -/
theorem sameUpTo_readInstances (hr : r.plain = r'.plain) (hd : d.plain = d'.plain)
    (h : line.text = line'.text) :
    SameUpTo State.plain (readContent w dialect ⟨r, .instances d⟩ line)
      (readContent w dialect ⟨r', .instances d'⟩ line') := by
  simp only [readContent, trimmed_congr h]
  split
  · obtain ⟨e, e', hread, hread'⟩ | ⟨a, b, hread, hread', hsame⟩ :=
      (ClassDraft.sameUpTo_finish (w := w) hd hr).cases
    · simp only [hread, hread', sameUpTo_error]
    · simp only [hread, hread', sameUpTo_ok_iff, State.plain, hsame]
  · obtain ⟨e, e', hread, hread'⟩ | ⟨d, d', hread, hread', hsame⟩ :=
      (ClassDraft.sameUpTo_readInstance hd h).cases
    · simp only [hread, hread', sameUpTo_error]
    · simp only [hread, hread', sameUpTo_ok_iff, State.plain, Place.plain, hr, hsame]

theorem sameUpTo_readContent (hs : s.plain = s'.plain) (h : line.text = line'.text) :
    SameUpTo State.plain (readContent w dialect s line) (readContent w dialect s' line') := by
  obtain ⟨r, place⟩ := s
  obtain ⟨r', place'⟩ := s'
  obtain ⟨hr, hplace⟩ := State.mk.inj hs
  simp only at hr hplace
  have htrimmed := trimmed_congr h
  cases place with
  | outside =>
    cases place' <;> cases hplace
    exact sameUpTo_readOutside hr h
  | block b =>
    cases place' with
    | block b' =>
      unfold readContent
      obtain ⟨e, e', hread, hread'⟩ | ⟨read, read', hread, hread', hsame⟩ :=
        (sameUpTo_readBlock (Place.block.inj hplace) h (dialect == .actionSets)).cases
      · simp only [hread, hread', sameUpTo_error]
      · simp only [hread, hread']
        exact sameUpTo_continueBlock hr hsame
    | _ => cases hplace
  | softGoals =>
    cases place' with
    | softGoals =>
      obtain ⟨hsets, hproperties, htemporal, hgoals⟩ := PropertySet.mk.inj hr
      simp [readContent, State.plain, PropertySet.plain, hsets, hproperties, htemporal, hgoals,
        htrimmed]
    | _ => cases hplace
  | classHead d =>
    cases place' with
    | classHead d' =>
      simp only [readContent, htrimmed]
      split
      · simp [State.plain, Place.plain, hr, Place.classHead.inj hplace]
      · rfl
    | _ => cases hplace
  | classBody d block =>
    cases place' with
    | classBody d' block' =>
      obtain ⟨hd, hblock⟩ := Place.classBody.inj hplace
      exact sameUpTo_readClassBody hr hd hblock h
    | _ => cases hplace
  | instancesHead d =>
    cases place' with
    | instancesHead d' =>
      simp only [readContent, htrimmed]
      split
      · simp [State.plain, Place.plain, hr, Place.instancesHead.inj hplace]
      · rfl
    | _ => cases hplace
  | instances d =>
    cases place' with
    | instances d' => exact sameUpTo_readInstances hr (Place.instances.inj hplace) h
    | _ => cases hplace

/-- What a blank line does: it ends the soft goals. -/
def State.afterBlank (s : State) : State :=
  match s.place with
  | .softGoals => { s with place := .outside }
  | _ => s

theorem State.plain_afterBlank (s : State) : s.afterBlank.plain = s.plain.afterBlank := by
  obtain ⟨r, place⟩ := s
  cases place <;> rfl

theorem readLine_eq (w : World) (dialect : Dialect) (s : State) (line : Line) :
    readLine w dialect s line =
      if line.isBlank then .ok s.afterBlank
      else if isSkipped line then .ok s
      else readContent w dialect s line := by
  obtain ⟨r, place⟩ := s
  unfold readLine
  split
  · cases place <;> rfl
  · rfl

/-- Two lines of one text do the same to states that are the same apart from places. -/
theorem sameUpTo_readLine (hs : s.plain = s'.plain) (h : line.text = line'.text) :
    SameUpTo State.plain (readLine w dialect s line) (readLine w dialect s' line') := by
  rw [readLine_eq, readLine_eq, isBlank_congr h, isSkipped_congr h]
  split
  · rw [sameUpTo_ok_iff, State.plain_afterBlank, State.plain_afterBlank, hs]
  · split
    · exact sameUpTo_ok_iff.mpr hs
    · exact sameUpTo_readContent hs h

end

end PropertyFile

end PlanConstraints

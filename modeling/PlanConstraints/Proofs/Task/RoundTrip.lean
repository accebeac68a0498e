import PlanConstraints.Proofs.Task.WellFormed
import PlanConstraints.Task.Reader
import PlanConstraints.Task.Written

set_option autoImplicit false

/-!
# Reading what was written

The written form of a well-formed task reads as the task (`read_text`), as long as the numbers of
its parts fit their fields.  Readers are followed with arbitrary lines behind those that they take
(`Reads`); only the reader of whole tasks looks at the end of the file (`ReadsAll`).
-/

namespace PlanConstraints

open Text (InRange)

/-- Lists of sizes that fit the file.  There are fewer than `2 ^ 63` variables and values, since the
numbers in an effect have a sign, and the lists in front of which a length is written are shorter
than `2 ^ 64`.  Every list in the memory of a machine with addresses of 64 bits is that short; only
lists without any bound need the condition. -/
structure Task.Countable (t : Task) : Prop where
  vars : t.vars.length < 2 ^ 63
  values : ∀ v ∈ t.vars, v.values.length < 2 ^ 63
  goal : t.goal.length < 2 ^ 64
  operators : t.operators.length < 2 ^ 64
  prevail : ∀ op ∈ t.operators, op.prevail.length < 2 ^ 64
  effects : ∀ op ∈ t.operators, op.effects.length < 2 ^ 64

instance (t : Task) : Decidable t.Countable :=
  decidable_of_iff (t.vars.length < 2 ^ 63 ∧ (∀ v ∈ t.vars, v.values.length < 2 ^ 63) ∧
      t.goal.length < 2 ^ 64 ∧ t.operators.length < 2 ^ 64 ∧
        (∀ op ∈ t.operators, op.prevail.length < 2 ^ 64) ∧
          ∀ op ∈ t.operators, op.effects.length < 2 ^ 64)
    ⟨fun ⟨hvars, hvalues, hgoal, hops, hprevail, heffects⟩ =>
        ⟨hvars, hvalues, hgoal, hops, hprevail, heffects⟩,
      fun h => ⟨h.vars, h.values, h.goal, h.operators, h.prevail, h.effects⟩⟩

namespace TaskFile

namespace Reader

variable {α β : Type}

/-- The reader takes lines of the given texts for `a`, whatever is behind them. -/
def Reads (r : Reader α) (texts : List String) (a : α) : Prop :=
  ∀ (lines rest : List Line) (previous : Option Line), lines.map Line.trimmed = texts →
    r ⟨previous, lines ++ rest⟩ = .ok (a, ⟨lines.getLast?.or previous, rest⟩)

theorem Reads.pure (a : α) : Reads (Reader.pure a) [] a := by
  intro lines rest previous hlines
  rw [List.map_eq_nil_iff.mp hlines]
  rfl

theorem Reads.bind {r : Reader α} {next : α → Reader β} {texts texts' : List String} {a : α}
    {b : β} (h : Reads r texts a) (hnext : Reads (next a) texts' b) :
    Reads (r >>= next) (texts ++ texts') b := by
  intro lines rest previous hlines
  obtain ⟨front, back, rfl, hfront, hback⟩ := List.map_eq_append_iff.mp hlines
  change Reader.bind r next _ = _
  rw [Reader.bind, List.append_assoc, h front (back ++ rest) previous hfront,
    List.getLast?_append, Option.or_assoc]
  exact hnext back rest _ hback

/-- A reader of one line in front of another reader. -/
theorem Reads.cons {r : Reader α} {next : α → Reader β} {text : String} {texts : List String}
    {a : α} {b : β} (h : Reads r [text] a) (hnext : Reads (next a) texts b) :
    Reads (r >>= next) (text :: texts) b := h.bind hnext

theorem getLast?_cons_or (l : Line) (lines : List Line) (previous : Option Line) :
    (l :: lines).getLast?.or previous = lines.getLast?.or (some l) := by
  rw [List.getLast?_cons]
  cases lines.getLast? <;> rfl

/-- Another reader goes on behind a line. -/
theorem Reads.line {expected text : String} {next : Line → Reader β} {texts : List String} {b : β}
    (h : ∀ l, l.trimmed = text → Reads (next l) texts b) :
    Reads (line expected >>= next) (text :: texts) b := by
  intro lines rest previous hlines
  obtain ⟨l, lines, rfl, hl, hmore⟩ := List.map_eq_cons_iff.mp hlines
  rw [getLast?_cons_or]
  exact h l hl lines rest (some l) hmore

theorem reads_parsed (expected : String) {parse : String → Option α} {text : String} {a : α}
    (h : parse text = some a) : Reads (parsed expected parse) [text] a := by
  apply Reads.line
  intro l hl
  simp only [hl, h]
  exact .pure a

theorem reads_keyword (word : String) : Reads (keyword word) [word] () :=
  reads_parsed _ (if_pos rfl)

theorem reads_text (expected name : String) : Reads (text expected) [name] name :=
  reads_parsed _ rfl

theorem reads_natural (expected : String) {n : Nat} (h : n < 2 ^ 64) :
    Reads (natural expected) [toString n] n :=
  reads_parsed _ (Text.natural?_toString h)

theorem reads_times {r : Reader α} {as : List α} {write : α → List String}
    (h : ∀ a ∈ as, Reads r (write a) a) : Reads (times r as.length) (as.flatMap write) as := by
  induction as with
  | nil => exact .pure []
  | cons a as ih =>
    obtain ⟨ha, has⟩ := List.forall_mem_cons.mp h
    have hrest : Reads (times r as.length >>= fun as => Reader.pure (a :: as))
        (as.flatMap write ++ []) (a :: as) := (ih has).bind (.pure _)
    rw [List.append_nil] at hrest
    exact ha.bind hrest

/-- Each thing is on a line of its own. -/
theorem reads_times_lines {r : Reader α} {as : List α} {write : α → String}
    (h : ∀ a ∈ as, Reads r [write a] a) : Reads (times r as.length) (as.map write) as := by
  rw [List.map_eq_flatMap]
  exact reads_times h

theorem reads_nonNegative (what : String) (n : Nat) : Reads (nonNegative what n) [] n := by
  intro lines rest previous hlines
  rw [List.map_eq_nil_iff.mp hlines]
  rfl

/-- The reader takes a whole file of lines of the given texts for `a`. -/
def ReadsAll (r : Reader α) (texts : List String) (a : α) : Prop :=
  ∀ (lines : List Line) (previous : Option Line), lines.map Line.trimmed = texts →
    ∃ p, r ⟨previous, lines⟩ = .ok (a, p)

theorem Reads.bind_readsAll {r : Reader α} {next : α → Reader β} {texts texts' : List String}
    {a : α} {b : β} (h : Reads r texts a) (hnext : ReadsAll (next a) texts' b) :
    ReadsAll (r >>= next) (texts ++ texts') b := by
  intro lines previous hlines
  obtain ⟨front, back, rfl, hfront, hback⟩ := List.map_eq_append_iff.mp hlines
  change ∃ p, Reader.bind r next _ = _
  rw [Reader.bind, h front back previous hfront]
  exact hnext back _ hback

theorem Reads.cons_readsAll {r : Reader α} {next : α → Reader β} {text : String}
    {texts : List String} {a : α} {b : β} (h : Reads r [text] a)
    (hnext : ReadsAll (next a) texts b) : ReadsAll (r >>= next) (text :: texts) b :=
  h.bind_readsAll hnext

theorem readsAll_endOfTask (a : α) : ReadsAll (endOfTask >>= fun _ => Reader.pure a) [] a := by
  intro lines previous hlines
  rw [List.map_eq_nil_iff.mp hlines]
  exact ⟨_, rfl⟩

end Reader

open Reader

/-! ## Parts of a task -/

/-- The words of numbers with spaces between them. -/
theorem wordsOf_integers (ns : List Int) :
    Text.wordsOf (" ".intercalate (ns.map toString)) = ns.map toString := by
  refine Text.wordsOf_intercalate fun w hw => ?_
  obtain ⟨n, -, rfl⟩ := List.mem_map.mp hw
  exact Text.isWord_integer n

theorem integers?_intercalate {ns : List Int} (h : ∀ n ∈ ns, InRange 64 n) :
    integers? (" ".intercalate (ns.map toString)) = some ns := by
  rw [integers?, wordsOf_integers]
  induction ns with
  | nil => rfl
  | cons n ns ih =>
    obtain ⟨hn, hns⟩ := List.forall_mem_cons.mp h
    rw [List.map_cons, List.mapM_cons, Text.integer?_toString hn, ih hns]
    rfl

/-- The number that is written for an optional value. -/
def numberOf : Option Nat → Int
  | none => -1
  | some value => value

theorem toString_numberOf (value : Option Nat) :
    toString (numberOf value) = optionalValue value := by
  cases value with
  | none => rfl
  | some value => rfl

theorem optionalOf_numberOf (value : Option Nat) : optionalOf (numberOf value) = value := by
  cases value with
  | none => rfl
  | some value =>
    have hnonneg : ¬ (value : Int) < 0 := by omega
    exact if_neg hnonneg

theorem inRange_natural {n : Nat} (h : n < 2 ^ 63) : InRange 64 n :=
  ⟨by omega, by omega⟩

theorem inRange_numberOf {value : Option Nat} (h : ∀ n ∈ value, n < 2 ^ 63) :
    InRange 64 (numberOf value) := by
  cases value with
  | none => decide
  | some n => exact inRange_natural (h n rfl)

/-! ## Effects -/

namespace EffectNumbers

/-- The numbers of which a fact is made. -/
def pairOf (f : Fact) : Int × Int := (f.var, f.value)

/-- The numbers of an effect. -/
def ofEffect (e : Effect) : EffectNumbers :=
  ⟨e.conditions.map pairOf, e.var, numberOf e.pre, e.post⟩

/-- The numbers in the order in which they are written. -/
def toList (e : EffectNumbers) : List Int :=
  e.conditions.flatMap (fun pair => [pair.1, pair.2]) ++ [e.var, e.pre, e.post]

theorem ofList?_toList (e : EffectNumbers) : ofList? e.conditions.length e.toList = some e := by
  obtain ⟨conditions, var, pre, post⟩ := e
  induction conditions with
  | nil => rfl
  | cons pair conditions ih =>
    change (ofList? conditions.length (toList ⟨conditions, var, pre, post⟩)).map _ = _
    rw [ih]
    rfl

end EffectNumbers

open EffectNumbers

/-- The line of an effect holds the number of conditions and the numbers of the effect. -/
theorem line_eq_numbers (e : Effect) :
    e.line = " ".intercalate
      (((e.conditions.length : Int) :: (ofEffect e).toList).map toString) := by
  have hconditions : (e.conditions.map pairOf).flatMap (fun pair => [pair.1, pair.2]) =
      e.conditions.flatMap fun f => [(f.var : Int), (f.value : Int)] := by
    rw [List.flatMap_map]
    rfl
  rw [Effect.line, ofEffect, EffectNumbers.toList, hconditions, ← toString_numberOf, List.map_cons,
    List.map_append, List.map_flatMap]
  rfl

theorem reads_factsOf (fs : List Fact) : Reads (factsOf (fs.map pairOf)) [] fs := by
  induction fs with
  | nil => exact .pure []
  | cons f fs ih =>
    refine (reads_nonNegative _ f.var).bind ?_
    refine (reads_nonNegative _ f.value).bind ?_
    exact ih.bind (.pure (f :: fs))

theorem reads_toEffect (e : Effect) : Reads (ofEffect e).toEffect [] e := by
  have hread : Reads (ofEffect e).toEffect []
      ⟨e.var, optionalOf (numberOf e.pre), e.post, e.conditions⟩ := by
    refine (reads_factsOf e.conditions).bind ?_
    refine (reads_nonNegative _ e.var).bind ?_
    refine (reads_nonNegative _ e.post).bind ?_
    exact .pure _
  rwa [optionalOf_numberOf] at hread

/-- An effect all of whose numbers fit the fields of a line of integers. -/
structure EffectFits (e : Effect) : Prop where
  conditions : e.conditions.length < 2 ^ 63
  facts : ∀ f ∈ e.conditions, f.var < 2 ^ 63 ∧ f.value < 2 ^ 63
  var : e.var < 2 ^ 63
  pre : ∀ value ∈ e.pre, value < 2 ^ 63
  post : e.post < 2 ^ 63

theorem EffectFits.inRange {e : Effect} (h : EffectFits e) :
    ∀ n ∈ (ofEffect e).toList, InRange 64 n := by
  intro n hn
  rcases List.mem_append.mp hn with hn | hn
  · obtain ⟨pair, hpair, hn⟩ := List.mem_flatMap.mp hn
    obtain ⟨f, hf, rfl⟩ := List.mem_map.mp hpair
    obtain ⟨hvar, hvalue⟩ := h.facts f hf
    rcases List.mem_cons.mp hn with rfl | hn
    · exact inRange_natural hvar
    · rw [List.mem_singleton.mp hn]
      exact inRange_natural hvalue
  · rcases List.mem_cons.mp hn with rfl | hn
    · exact inRange_natural h.var
    · rcases List.mem_cons.mp hn with rfl | hn
      · exact inRange_numberOf h.pre
      · rw [List.mem_singleton.mp hn]
        exact inRange_natural h.post

theorem counted?_line {e : Effect} (h : EffectFits e) : counted? e.line = some (ofEffect e) := by
  have hall : ∀ n ∈ (e.conditions.length : Int) :: (ofEffect e).toList, InRange 64 n :=
    List.forall_mem_cons.mpr ⟨inRange_natural h.conditions, h.inRange⟩
  have hcount : Text.natural? 64 (toString (e.conditions.length : Int)) =
      some e.conditions.length :=
    Text.natural?_toString (Nat.lt_trans h.conditions (by decide))
  have hlist := ofList?_toList (ofEffect e)
  have hlength : (ofEffect e).conditions.length = e.conditions.length := List.length_map _
  rw [hlength] at hlist
  rw [counted?, line_eq_numbers, integers?_intercalate hall, wordsOf_integers, List.map_cons]
  simp only [hcount, hlist]

theorem reads_effectLine {e : Effect} (h : EffectFits e) : Reads effectLine [e.line] e :=
  (reads_parsed _ (counted?_line h)).cons (reads_toEffect e)

/-! ## Blocks -/

theorem reads_factLine {f : Fact} (h : f.Legible) : Reads factLine [f.line] f := by
  have hwords : Text.wordsOf f.line = [toString f.var, toString f.value] := by
    refine Text.wordsOf_intercalate fun w hw => ?_
    rcases List.mem_cons.mp hw with rfl | hw
    · exact Text.isWord_natural _
    · rw [List.mem_singleton.mp hw]
      exact Text.isWord_natural _
  refine reads_parsed _ ?_
  rw [factOf?, hwords]
  simp only [Text.natural?_toString h.var, Text.natural?_toString h.value]

theorem reads_facts (expected : String) {fs : List Fact} (h : LegibleFacts fs) :
    Reads (facts expected) (factLines fs) fs := by
  have hlines : Reads (times factLine fs.length) (fs.map Fact.line) fs :=
    reads_times_lines fun f hf => reads_factLine (h.facts f hf)
  exact (reads_natural expected h.length).cons hlines

theorem reads_variableBlock {v : Variable} (h : v.Legible) (hsize : v.values.length < 2 ^ 64) :
    Reads variableBlock v.lines v := by
  have hvalues : Reads (times (text "a value name") v.values.length) (v.values.map id) v.values :=
    reads_times_lines fun value _ => reads_text _ value
  rw [List.map_id] at hvalues
  have hlines : v.lines = "begin_variable" :: v.name :: toString v.layer ::
      toString v.values.length :: (v.values ++ ["end_variable"]) := by simp [Variable.lines]
  rw [hlines]
  refine (reads_keyword _).cons ?_
  refine (reads_text _ _).cons ?_
  refine (reads_parsed _ (Text.integer?_toString h.layer)).cons ?_
  refine (reads_natural _ hsize).cons ?_
  refine hvalues.bind ?_
  exact (reads_keyword _).cons (.pure v)

theorem reads_mutexBlock {group : List Fact} (h : LegibleFacts group) :
    Reads mutexBlock (mutexLines group) group := by
  refine (reads_keyword _).cons ?_
  refine (reads_facts _ h).bind ?_
  exact (reads_keyword _).cons (.pure group)

theorem reads_operatorBlock {op : Operator} (h : op.Legible) (hprevail : LegibleFacts op.prevail)
    (hcount : op.effects.length < 2 ^ 64) (heffects : ∀ e ∈ op.effects, EffectFits e) :
    Reads operatorBlock op.lines op := by
  have hlines : op.lines = "begin_operator" :: op.name :: (factLines op.prevail ++
      toString op.effects.length :: (op.effects.map Effect.line ++
        [toString op.cost, "end_operator"])) := by simp [Operator.lines]
  rw [hlines]
  refine (reads_keyword _).cons ?_
  refine (reads_text _ _).cons ?_
  refine (reads_facts _ hprevail).bind ?_
  refine (reads_natural _ hcount).cons ?_
  refine (reads_times_lines fun e he => reads_effectLine (heffects e he)).bind ?_
  refine (reads_parsed _ (Text.integer?_toString h.cost)).cons ?_
  exact (reads_keyword _).cons (.pure op)

theorem bare?_line {e : Effect} (h : EffectFits e) (hconditions : e.conditions = []) :
    bare? (" ".intercalate [toString e.var, optionalValue e.pre, toString e.post]) =
      some (ofEffect e) := by
  have hlist : (ofEffect e).toList = [(e.var : Int), numberOf e.pre, (e.post : Int)] := by
    rw [EffectNumbers.toList, ofEffect, hconditions]
    rfl
  have hread := integers?_intercalate h.inRange
  rw [hlist, List.map_cons, List.map_cons, List.map_singleton, toString_numberOf] at hread
  have hof := ofList?_toList (ofEffect e)
  have hlength : (ofEffect e).conditions.length = 0 := by
    rw [ofEffect, hconditions]
    rfl
  rw [hlength, hlist] at hof
  have hread : integers? (" ".intercalate [toString e.var, optionalValue e.pre, toString e.post]) =
      some [(e.var : Int), numberOf e.pre, (e.post : Int)] := hread
  rw [bare?, hread]
  exact hof

/-- The effect of a rule. -/
theorem reads_ruleBlock {r : Rule} (h : r.Legible) : Reads ruleBlock r.lines r := by
  have hfits : EffectFits ⟨r.var, r.pre, r.post, []⟩ :=
    ⟨by simp, by simp, h.var, h.pre, h.post⟩
  have hlines : r.lines = "begin_rule" :: (factLines r.conditions ++
      " ".intercalate [toString r.var, optionalValue r.pre, toString r.post] ::
        ["end_rule"]) := by simp [Rule.lines]
  rw [hlines]
  refine (reads_keyword _).cons ?_
  refine (reads_facts _ h.conditions).bind ?_
  refine (reads_parsed _ (bare?_line hfits rfl)).cons ?_
  refine (reads_keyword _).cons ?_
  exact (reads_toEffect _).bind (.pure r)

/-! ## Tasks -/

theorem reads_version : Reads version ["begin_version", "3", "end_version"] () := by
  refine (reads_keyword _).cons ?_
  apply Reads.line
  intro l hl
  rw [if_pos hl]
  exact reads_keyword _

/-- What exists in the task has numbers that fit. -/
theorem lt_of_inDomain {t : Task} (h : t.Countable) {f : Fact} (hf : t.InDomain f) :
    f.var < 2 ^ 63 ∧ f.value < 2 ^ 63 := by
  obtain ⟨v, hv, hlt⟩ := hf
  obtain ⟨hvar, -⟩ := List.getElem?_eq_some_iff.mp hv
  exact ⟨Nat.lt_trans hvar h.vars,
    Nat.lt_trans hlt (h.values v (List.mem_of_getElem? hv))⟩

theorem legibleFacts_of_inDomain {t : Task} (h : t.Countable) {fs : List Fact}
    (hlength : fs.length < 2 ^ 64) (hfs : ∀ f ∈ fs, t.InDomain f) : LegibleFacts fs := by
  refine ⟨hlength, fun f hf => ?_⟩
  obtain ⟨hvar, hvalue⟩ := lt_of_inDomain h (hfs f hf)
  exact ⟨Nat.lt_trans hvar (by decide), Nat.lt_trans hvalue (by decide)⟩

theorem effectFits_of_admitsEffect {t : Task} (h : t.Countable) {e : Effect}
    (he : t.AdmitsEffect e) : EffectFits e where
  conditions := he.conditions
  facts f hf := lt_of_inDomain h (he.inDomain f (List.mem_cons_of_mem _ hf))
  var := (lt_of_inDomain h (he.inDomain e.result List.mem_cons_self)).1
  pre value hvalue := by
    have hmem : (⟨e.var, value⟩ : Fact) ∈ e.precondition? := by
      rw [Option.mem_def] at hvalue
      rw [Effect.precondition?, hvalue]
      rfl
    exact (lt_of_inDomain h (he.precondition _ hmem)).2
  post := (lt_of_inDomain h (he.inDomain e.result List.mem_cons_self)).2

theorem reads_operator {t : Task} (h : t.WellFormed) (hcount : t.Countable) {op : Operator}
    (hop : op ∈ t.operators) : Reads operatorBlock op.lines op := by
  have hadmits := h.admits hop
  have hprevail : ∀ f ∈ op.prevail, t.InDomain f := fun f hf =>
    hadmits.inDomain f (Operator.mem_operatorFacts.mpr (.inl (List.mem_append_left _ hf)))
  exact reads_operatorBlock hadmits.legible
    (legibleFacts_of_inDomain hcount (hcount.prevail op hop) hprevail) (hcount.effects op hop)
    fun e he => effectFits_of_admitsEffect hcount (hadmits.effect he)

theorem readsAll_task {t : Task} (h : t.WellFormed) (hcount : t.Countable) :
    ReadsAll task t.lines t := by
  have hmetric : Text.natural? 8 (if t.metric then "1" else "0") = some t.metric.toNat := by
    cases t.metric <;> decide
  have hinit : Reads (times (natural "an initial value") t.vars.length) (t.init.map toString)
      t.init := by
    rw [← h.consistent.length_init]
    refine reads_times_lines fun value hvalue => reads_natural _ ?_
    obtain ⟨var, hvar⟩ := List.mem_iff_getElem?.mp hvalue
    exact Nat.lt_trans (lt_of_inDomain hcount (h.consistent.init var value hvar)).2 (by decide)
  have htask : (⟨t.metric.toNat != 0, t.vars, t.mutexes, t.init, t.goal, t.operators, t.rules⟩ :
      Task) = t := by
    obtain ⟨metric, _⟩ := t
    cases metric <;> rfl
  have hlines : t.lines = ["begin_version", "3", "end_version"] ++ "begin_metric" ::
      (if t.metric then "1" else "0") :: "end_metric" :: toString t.vars.length ::
        (t.vars.flatMap Variable.lines ++ toString t.mutexes.length ::
          (t.mutexes.flatMap mutexLines ++ "begin_state" :: (t.init.map toString ++
            "end_state" :: "begin_goal" :: (factLines t.goal ++ "end_goal" ::
              toString t.operators.length :: (t.operators.flatMap Operator.lines ++
                toString t.rules.length :: (t.rules.flatMap Rule.lines ++ [])))))) := by
    simp [Task.lines]
  rw [hlines]
  refine reads_version.bind_readsAll ?_
  refine (reads_keyword _).cons_readsAll ?_
  refine (reads_parsed _ hmetric).cons_readsAll ?_
  refine (reads_keyword _).cons_readsAll ?_
  refine (reads_natural _ (Nat.lt_trans hcount.vars (by decide))).cons_readsAll ?_
  refine (reads_times fun v hv => reads_variableBlock (h.legible.vars v hv)
    (Nat.lt_trans (hcount.values v hv) (by decide))).bind_readsAll ?_
  refine (reads_natural _ h.legible.mutexCount).cons_readsAll ?_
  refine (reads_times fun group hgroup => reads_mutexBlock
    (h.legible.mutexes group hgroup)).bind_readsAll ?_
  refine (reads_keyword _).cons_readsAll ?_
  refine hinit.bind_readsAll ?_
  refine (reads_keyword _).cons_readsAll ?_
  refine (reads_keyword _).cons_readsAll ?_
  refine (reads_facts _ (legibleFacts_of_inDomain hcount hcount.goal
    h.consistent.goal)).bind_readsAll ?_
  refine (reads_keyword _).cons_readsAll ?_
  refine (reads_natural _ hcount.operators).cons_readsAll ?_
  refine (reads_times fun op hop => reads_operator h hcount hop).bind_readsAll ?_
  refine (reads_natural _ h.legible.ruleCount).cons_readsAll ?_
  refine (reads_times fun r hr => reads_ruleBlock (h.legible.rules r hr)).bind_readsAll ?_
  rw [htask]
  exact readsAll_endOfTask t

/-! ## Texts -/

theorem isLine_natural (n : Nat) : IsLine (toString n) := (Text.isWord_natural n).isLine

theorem isWord_optionalValue (value : Option Nat) : Text.IsWord (optionalValue value).toList := by
  cases value with
  | none => decide
  | some value => exact Text.isWord_natural value

theorem isWord_of_mem_words {f : Fact} : ∀ w ∈ f.words, Text.IsWord w.toList :=
  List.forall_mem_cons.mpr ⟨Text.isWord_natural _, List.forall_mem_singleton.mpr
    (Text.isWord_natural _)⟩

/-- The words of a variable with a value that is needed, if any, and one that it gets. -/
theorem isWord_of_mem_change (var post : Nat) (pre : Option Nat) :
    ∀ w ∈ [toString var, optionalValue pre, toString post], Text.IsWord w.toList := by
  simp only [List.forall_mem_cons]
  exact ⟨Text.isWord_natural _, isWord_optionalValue _, Text.isWord_natural _,
    fun _ hw => by cases hw⟩

theorem isLine_effectLine (e : Effect) : IsLine e.line := by
  refine isLine_intercalate (List.cons_ne_nil _ _) ?_
  rw [List.cons_append, List.forall_mem_cons, List.forall_mem_append]
  refine ⟨Text.isWord_natural _, fun w hw => ?_, isWord_of_mem_change _ _ _⟩
  obtain ⟨f, -, hw⟩ := List.mem_flatMap.mp hw
  exact isWord_of_mem_words w hw

theorem isLine_of_mem_factLines (fs : List Fact) : ∀ text ∈ factLines fs, IsLine text := by
  refine List.forall_mem_cons.mpr ⟨isLine_natural _, fun text htext => ?_⟩
  obtain ⟨f, -, rfl⟩ := List.mem_map.mp htext
  exact isLine_intercalate (List.cons_ne_nil _ _) isWord_of_mem_words

theorem isLine_of_mem_variableLines {v : Variable} (h : v.Legible) :
    ∀ text ∈ v.lines, IsLine text := by
  simp only [Variable.lines, List.forall_mem_append, List.forall_mem_cons, List.not_mem_nil,
    IsEmpty.forall_iff, implies_true, and_true]
  exact ⟨⟨⟨by decide, h.name, (Text.isWord_integer _).isLine, isLine_natural _⟩, h.values⟩,
    by decide⟩

theorem isLine_of_mem_mutexLines (group : List Fact) :
    ∀ text ∈ mutexLines group, IsLine text := by
  simp only [mutexLines, List.cons_append, List.forall_mem_append, List.forall_mem_cons,
    List.not_mem_nil, IsEmpty.forall_iff, implies_true, and_true]
  exact ⟨by decide, isLine_of_mem_factLines group, by decide⟩

theorem isLine_of_mem_operatorLines {op : Operator} (h : op.Legible) :
    ∀ text ∈ op.lines, IsLine text := by
  simp only [Operator.lines, List.cons_append, List.nil_append, List.forall_mem_append,
    List.forall_mem_cons, List.forall_mem_map, List.not_mem_nil, IsEmpty.forall_iff, implies_true,
    and_true]
  exact ⟨by decide, h.name, ⟨isLine_of_mem_factLines _, isLine_natural _,
    fun e _ => isLine_effectLine e⟩, (Text.isWord_integer _).isLine, by decide⟩

theorem isLine_of_mem_ruleLines (r : Rule) : ∀ text ∈ r.lines, IsLine text := by
  simp only [Rule.lines, List.cons_append, List.forall_mem_append, List.forall_mem_cons,
    List.not_mem_nil, IsEmpty.forall_iff, implies_true, and_true]
  exact ⟨by decide, isLine_of_mem_factLines _,
    isLine_intercalate (List.cons_ne_nil _ _) (isWord_of_mem_change _ _ _), by decide⟩

/-- What is written fills lines. -/
theorem isLine_of_mem_lines {t : Task} (h : t.Legible) : ∀ text ∈ t.lines, IsLine text := by
  have hmetric : IsLine (if t.metric then "1" else "0") := by cases t.metric <;> decide
  simp only [Task.lines, List.cons_append, List.nil_append, List.append_assoc,
    List.forall_mem_append, List.forall_mem_cons, List.forall_mem_flatMap, List.forall_mem_map]
  exact ⟨by decide, by decide, by decide, by decide, hmetric, by decide, isLine_natural _,
    fun v hv => isLine_of_mem_variableLines (h.vars v hv), isLine_natural _,
    fun group _ => isLine_of_mem_mutexLines group, by decide, fun value _ => isLine_natural value,
    by decide, by decide, isLine_of_mem_factLines _, by decide, isLine_natural _,
    fun op hop => isLine_of_mem_operatorLines (h.operators op hop), isLine_natural _,
    fun r _ => isLine_of_mem_ruleLines r⟩

/-- The written form of a task reads as the task. -/
theorem read_text {t : Task} (h : t.WellFormed) (hcount : t.Countable) (source : Option String) :
    read ⟨t.text, source⟩ = .ok t := by
  have htexts := map_trimmed_lines (isLine_of_mem_lines h.legible) source
  obtain ⟨p, hread⟩ := readsAll_task h hcount _ none htexts
  rw [read, Task.text, hread]
  simp only [(Task.check_eq_ok_iff t).mpr h.consistent]

end TaskFile

end PlanConstraints

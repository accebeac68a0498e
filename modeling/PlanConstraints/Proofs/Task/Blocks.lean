import PlanConstraints.Proofs.Task.Following

set_option autoImplicit false

/-!
# Following the parts of a task

The readers of the parts of a task take lines of the forms of the part.  In effects and rules there
are numbers that are checked once they were read (`Checks`).  The error points at the line that was
read last: the line of the number for an effect (`failsAt_effectLine`), but the line below it for a
rule (`failsAt_ruleEnd`).
-/

namespace PlanConstraints

namespace TaskFile

open Reader EffectNumbers

/-! ## Checks of numbers -/

/-- The reader reads no further, and fails at a negative number only; the line that was read last is
then given. -/
def Reader.Checks {α : Type} (r : Reader α) : Prop :=
  ∀ p, (∃ a, r p = .ok (a, p)) ∨ ∃ what, r p = .error (.negative what p.previous)

theorem Reader.Checks.pure {α : Type} (a : α) : Checks (Reader.pure a) := fun _ => .inl ⟨a, rfl⟩

theorem Reader.Checks.bind {α β : Type} {r : Reader α} {next : α → Reader β} (h : Checks r)
    (hnext : ∀ a, Checks (next a)) : Checks (r >>= next) := by
  intro p
  rcases h p with ⟨a, ha⟩ | ⟨what, hwhat⟩
  · rw [bind_of_ok ha]
    exact hnext a p
  · exact .inr ⟨what, bind_of_error hwhat⟩

theorem checks_nonNegative (what : String) (n : Int) : Checks (nonNegative what n) := by
  intro p
  unfold nonNegative
  split
  · exact .inr ⟨what, rfl⟩
  · exact .inl ⟨n.toNat, rfl⟩

theorem checks_factsOf (pairs : List (Int × Int)) : Checks (factsOf pairs) := by
  induction pairs with
  | nil => exact .pure _
  | cons pair pairs ih =>
    refine (checks_nonNegative _ _).bind fun var => ?_
    refine (checks_nonNegative _ _).bind fun value => ?_
    exact ih.bind fun fs => .pure _

theorem checks_toEffect (e : EffectNumbers) : Checks e.toEffect := by
  refine (checks_factsOf _).bind fun fs => ?_
  refine (checks_nonNegative _ _).bind fun var => ?_
  exact (checks_nonNegative _ _).bind fun post => .pure _

theorem follows_factsOf (pairs : List (Int × Int)) :
    Follows (factsOf pairs) fun fs forms => fs.map pairOf = pairs ∧ forms = [] := by
  induction pairs with
  | nil => exact .pure ⟨rfl, rfl⟩
  | cons pair pairs ih =>
    refine (follows_nonNegative _ _).bind ?_
    rintro var _ ⟨hvar, rfl⟩
    refine (follows_nonNegative _ _).bind ?_
    rintro value _ ⟨hvalue, rfl⟩
    refine ih.bind ?_
    rintro fs _ ⟨rfl, rfl⟩
    exact .pure ⟨by rw [List.map_cons, pairOf, hvar, hvalue], rfl⟩

/-- The numbers of the effect that is found are those that were read. -/
structure EffectNumbers.Makes (e : EffectNumbers) (effect : Effect) : Prop where
  conditions : effect.conditions.map pairOf = e.conditions
  var : (effect.var : Int) = e.var
  pre : effect.pre = optionalOf e.pre
  post : (effect.post : Int) = e.post

theorem follows_toEffect (e : EffectNumbers) :
    Follows e.toEffect fun effect forms => e.Makes effect ∧ forms = [] := by
  refine (follows_factsOf _).bind ?_
  rintro fs _ ⟨hconditions, rfl⟩
  refine (follows_nonNegative _ _).bind ?_
  rintro var _ ⟨hvar, rfl⟩
  refine (follows_nonNegative _ _).bind ?_
  rintro post _ ⟨hpost, rfl⟩
  exact .pure ⟨⟨hconditions, hvar, rfl, hpost⟩, rfl⟩

namespace EffectNumbers.Makes

variable {e : EffectNumbers} {effect : Effect}

theorem length_conditions (h : e.Makes effect) :
    effect.conditions.length = e.conditions.length := by
  rw [← h.conditions, List.length_map]

theorem change_eq (h : e.Makes effect) :
    changeNumerals effect.var effect.pre effect.post = e.change := by
  rw [changeNumerals, EffectNumbers.change, h.var, h.pre, h.post]

theorem form_eq (h : e.Makes effect) :
    effect.form = .numbers (.int e.conditions.length :: e.numerals) := by
  rw [Effect.form, EffectNumbers.numerals, h.change_eq, h.length_conditions, ← h.conditions,
    List.flatMap_map]
  rfl

/-- Only the number of the value that is needed may be negative. -/
theorem nonneg (h : e.Makes effect) {place : Nat} {n : Int} (hn : e.toList[place]? = some n)
    (hpre : place ≠ 2 * e.conditions.length + 1) : 0 ≤ n := by
  let numbers := effect.conditions.flatMap fun f => [(f.var : Int), (f.value : Int)]
  have hlist : e.toList = numbers ++ [(effect.var : Int), e.pre, (effect.post : Int)] := by
    rw [EffectNumbers.toList, ← h.conditions, ← h.var, ← h.post, List.flatMap_map]
    rfl
  have hlength : numbers.length = 2 * e.conditions.length := by
    simp [numbers, h.length_conditions, Nat.mul_comm]
  rw [hlist] at hn
  by_cases hlt : place < numbers.length
  · rw [List.getElem?_append_left hlt] at hn
    obtain ⟨f, -, hf⟩ := List.mem_flatMap.mp (List.mem_of_getElem? hn)
    rcases List.mem_cons.mp hf with rfl | hf
    · exact Int.natCast_nonneg _
    · rw [List.mem_singleton.mp hf]
      exact Int.natCast_nonneg _
  · rw [List.getElem?_append_right (Nat.le_of_not_lt hlt)] at hn
    have hsecond : place - numbers.length ≠ 1 := by omega
    generalize place - numbers.length = rest at hn hsecond
    rcases rest with _ | _ | _ | rest
    · cases hn
      exact Int.natCast_nonneg _
    · exact absurd rfl hsecond
    · cases hn
      exact Int.natCast_nonneg _
    · cases hn

end EffectNumbers.Makes

/-- A negative number in another place than that of the value that is needed. -/
theorem failsAt_toEffect {e : EffectNumbers} {place : Nat} {n : Int}
    (hn : e.toList[place]? = some n) (hneg : n < 0) (hpre : place ≠ 2 * e.conditions.length + 1)
    (l : Line) (rest : List Line) : e.toEffect.FailsAt ⟨some l, rest⟩ l := by
  rcases checks_toEffect e ⟨some l, rest⟩ with ⟨effect, hok⟩ | ⟨what, hwhat⟩
  · obtain ⟨_, _, -, -, hmakes, -⟩ := follows_toEffect e _ _ _ hok
    have hnonneg := hmakes.nonneg hn hpre
    omega
  · exact ⟨_, hwhat, rfl⟩

/-- What was read in no line is found everywhere. -/
theorem taken_toEffect {e : EffectNumbers} {p p' : Position} {effect : Effect}
    (h : e.toEffect p = .ok (effect, p')) :
    p' = p ∧ e.Makes effect ∧ Taken e.toEffect [] [] effect := by
  obtain ⟨lines, _, hrest, hfollowed, hmakes, rfl⟩ := follows_toEffect e _ _ _ h
  have hnil : lines.map Line.trimmed = [] := List.forall₂_nil_left_iff.mp hfollowed.spelled
  rw [hnil] at hfollowed
  refine ⟨?_, hmakes, hfollowed.toTaken⟩
  rcases checks_toEffect e p with ⟨effect', hok⟩ | ⟨what, hwhat⟩
  · rw [hok] at h
    cases h
    rfl
  · rw [hwhat] at h
    cases h

/-! ## Effects -/

/-- The line of an effect with a negative number where none may be is at fault itself. -/
theorem failsAt_effectLine {text : String} {numbers : EffectNumbers} {e : Effect}
    (htext : counted? text = some numbers) (hmakes : numbers.Makes e) {late : Nat} {l : Line}
    (hnegated : e.form.Negated text l.trimmed late) (previous : Option Line) (rest : List Line) :
    late = 0 ∧ effectLine.FailsAt ⟨previous, l :: rest⟩ l := by
  obtain @⟨place, late, word, n, hchecked, hword, hneg, hfound⟩ := hnegated
  obtain ⟨ns, hform, hplace⟩ := hchecked.exists_numbers
  obtain ⟨ns', hform', hlength⟩ := e.exists_form
  cases hform.symm.trans hform'
  rcases hplace with ⟨hthree, -⟩ | ⟨-, rfl, hfirst, hpre, hlt⟩
  · omega
  · refine ⟨ite_self 0, ?_⟩
    obtain ⟨place, rfl⟩ := Nat.exists_eq_succ_of_ne_zero hfirst
    rw [hlength, hmakes.length_conditions] at hpre hlt
    -- A number without the width of the field spoils the line; any other one is checked.
    cases hread : counted? l.trimmed with
    | none => exact (parsed_of_none hread previous rest).bind
    | some numbers' =>
      have hbound : place < numbers.toList.length := by
        rw [length_toList]
        omega
      have hset := counted?_set htext hbound hfound
      rw [hread, Text.integer?_of_spells hword hneg] at hset
      obtain ⟨m, hm, hof⟩ := Option.bind_eq_some_iff.mp hset.symm
      obtain ⟨-, hm⟩ := Option.ite_none_right_eq_some.mp hm
      cases hm
      obtain ⟨hcount, hlist⟩ := toList_of_ofList? hof
      have hn : numbers'.toList[place]? = some n := by
        rw [hlist, List.getElem?_set_self hbound]
      have hfails := failsAt_toEffect hn hneg (by omega) l rest
      exact hfails.behind (reads_parsed _ hread [l] rest previous rfl)

theorem follows_effectLine : Follows effectLine fun e forms => forms = [e.form] := by
  intro p p' e hread
  obtain ⟨numbers, p'', hparsed, hmake⟩ := exists_of_bind hread
  obtain ⟨l, hrest, -, hl⟩ := exists_of_parsed hparsed
  obtain ⟨rfl, hmakes, hmade⟩ := taken_toEffect hmake
  have hform : e.form.SpelledBy l.trimmed := hmakes.form_eq ▸ spelledBy_of_counted? hl
  have htaken : Taken effectLine [l.trimmed] [e.form] e := (taken_parsed _ hl hform).bind hmade
  refine ⟨[l], [e.form], hrest, ⟨htaken, ?_⟩, rfl⟩
  intro i form text found late hi htext hnegated lines rest previous hlines
  cases i with
  | zero =>
    cases hi
    cases htext
    obtain ⟨l', rfl, rfl⟩ := List.map_eq_singleton_iff.mp hlines
    obtain ⟨rfl, hfails⟩ := failsAt_effectLine hl hmakes hnegated previous rest
    exact ⟨l', rfl, hfails⟩
  | succ i => cases hi

/-! ## Rules -/

/-- A rule is read to its end, below its conditions. -/
def ruleEnd (conditions : List Fact) : Reader Rule := do
  let numbers ← parsed "an axiom effect" EffectNumbers.bare?
  keyword "end_rule"
  let effect ← numbers.toEffect
  Reader.pure ⟨conditions, effect.var, effect.pre, effect.post⟩

/-- The line that ends a rule is at fault for a negative number in the line of its change. -/
theorem failsAt_ruleEnd {text : String} {numbers : EffectNumbers}
    (htext : bare? text = some numbers) {var post : Nat} {pre : Option Nat} {late : Nat}
    {l last : Line} (hlast : last.trimmed = "end_rule")
    (hnegated : (LineForm.numbers (changeNumerals var pre post)).Negated text l.trimmed late)
    (conditions : List Fact) (previous : Option Line) (rest : List Line) :
    ∃ culprit, [l, last][late]? = some culprit ∧
      (ruleEnd conditions).FailsAt ⟨previous, l :: last :: rest⟩ culprit := by
  obtain @⟨place, late, word, n, hchecked, hword, hneg, hfound⟩ := hnegated
  obtain ⟨ns, hform, hplace⟩ := hchecked.exists_numbers
  cases hform
  rcases hplace with ⟨-, rfl, hplace⟩ | ⟨hlength, -⟩
  · -- Only a number that has the width of the field is checked, and only behind the last line.
    rcases bare?_set htext (by omega) hfound with ⟨hread, hn⟩ | ⟨m, numbers', hm, hread, hlist⟩
    · have hwide : ¬ -2 ^ 63 ≤ n := by
        rw [Text.integer?_of_spells hword hneg] at hn
        intro hle
        rw [if_pos hle] at hn
        cases hn
      rw [if_neg hwide]
      exact ⟨l, rfl, (parsed_of_none hread previous _).bind⟩
    · rw [Text.integer?_of_spells hword hneg] at hm
      obtain ⟨hwidth, hm⟩ := Option.ite_none_right_eq_some.mp hm
      cases hm
      rw [if_pos hwidth]
      refine ⟨last, rfl, ?_⟩
      have hn : numbers'.toList[place]? = some n := by
        rw [hlist, List.getElem?_set_self]
        rw [length_toList]
        omega
      have hsecond : place ≠ 2 * numbers'.conditions.length + 1 := by
        rw [conditions_of_bare? hread]
        omega
      have hfails : numbers'.toEffect.FailsAt ⟨some last, rest⟩ last :=
        failsAt_toEffect hn hneg hsecond last rest
      have hkeyword := reads_keyword "end_rule" [last] rest (some l) (congrArg (fun t => [t]) hlast)
      refine FailsAt.behind ?_ (reads_parsed _ hread [l] (last :: rest) previous rfl)
      refine FailsAt.behind ?_ hkeyword
      exact hfails.bind
  · have hthree : (changeNumerals var pre post).length = 3 := rfl
    omega

theorem follows_ruleEnd (conditions : List Fact) : Follows (ruleEnd conditions) fun r forms =>
    r.conditions = conditions ∧
      forms = [.numbers (changeNumerals r.var r.pre r.post), .name "end_rule"] := by
  intro p p' r hread
  obtain ⟨numbers, p₁, hparsed, hread⟩ := exists_of_bind hread
  obtain ⟨_, p₂, hkeyword, hread⟩ := exists_of_bind hread
  obtain ⟨effect, p₃, hmake, hpure⟩ := exists_of_bind hread
  obtain ⟨rfl, hmakes, hmade⟩ := taken_toEffect hmake
  cases hpure
  obtain ⟨l, hrest, -, hl⟩ := exists_of_parsed hparsed
  obtain ⟨last, hrest', -, hlast⟩ := exists_of_parsed hkeyword
  have hend : last.trimmed = "end_rule" := by
    split at hlast
    · next heq => exact heq
    · cases hlast
  have hform : (LineForm.numbers (changeNumerals effect.var effect.pre effect.post)).SpelledBy
      l.trimmed := hmakes.change_eq ▸ spelledBy_of_bare? hl
  have htaken : Taken (ruleEnd conditions) [l.trimmed, last.trimmed]
      [.numbers (changeNumerals effect.var effect.pre effect.post), .name "end_rule"]
        ⟨conditions, effect.var, effect.pre, effect.post⟩ :=
    (taken_parsed _ hl hform).bind <| (taken_parsed _ hlast (hend ▸ .name)).bind <|
      hmade.bind (.pure _)
  refine ⟨[l, last], _, by rw [hrest, hrest']; rfl, ⟨htaken, ?_⟩, rfl, rfl⟩
  intro i form text found late hi htext hnegated lines rest previous hlines
  rcases i with _ | _ | i
  · cases hi
    cases htext
    obtain ⟨l', more, rfl, rfl, hmore⟩ := List.map_eq_cons_iff.mp hlines
    obtain ⟨last', rfl, hlast'⟩ := List.map_eq_singleton_iff.mp hmore
    obtain ⟨culprit, hculprit, hfails⟩ :=
      failsAt_ruleEnd hl (hlast'.trans hend) hnegated conditions previous rest
    rw [Nat.zero_add]
    exact ⟨culprit, hculprit, hfails⟩
  · cases hi
    obtain ⟨hchecked, -, -, -⟩ := hnegated
    exact absurd hchecked (LineForm.unchecked_name _ _ _)
  · cases hi

/-! ## Parts of a task -/

theorem follows_factLine : Follows factLine fun f forms => forms = [f.form] :=
  follows_parsed _ (fun _ _ => spelledBy_of_factOf?) fun _ =>
    LineForm.unchecked_numbers (Nat.lt_succ_self 2)

theorem follows_facts (expected : String) :
    Follows (facts expected) fun fs forms => forms = factForms fs := by
  refine (follows_natural expected).bind ?_
  rintro n _ rfl
  refine (follows_times_lines follows_factLine n).imp ?_
  rintro fs _ ⟨rfl, rfl⟩
  rfl

theorem follows_variableBlock : Follows variableBlock fun v forms => forms = v.forms := by
  refine (follows_keyword _).bind ?_
  rintro _ _ rfl
  refine (follows_text _).bind ?_
  rintro name _ rfl
  refine (follows_integer _ _).bind ?_
  rintro layer _ rfl
  refine (follows_natural _).bind ?_
  rintro size _ rfl
  refine (follows_times_lines (follows_text _) size).bind ?_
  rintro values _ ⟨rfl, rfl⟩
  refine (follows_keyword _).bind ?_
  rintro _ _ rfl
  exact .pure (by simp [Variable.forms])

theorem follows_mutexBlock : Follows mutexBlock fun group forms => forms = mutexForms group := by
  refine (follows_keyword _).bind ?_
  rintro _ _ rfl
  refine (follows_facts _).bind ?_
  rintro group _ rfl
  refine (follows_keyword _).bind ?_
  rintro _ _ rfl
  exact .pure (by simp [mutexForms])

theorem follows_operatorBlock : Follows operatorBlock fun op forms => forms = op.forms := by
  refine (follows_keyword _).bind ?_
  rintro _ _ rfl
  refine (follows_text _).bind ?_
  rintro name _ rfl
  refine (follows_facts _).bind ?_
  rintro prevail _ rfl
  refine (follows_natural _).bind ?_
  rintro n _ rfl
  refine (follows_times_lines follows_effectLine n).bind ?_
  rintro effects _ ⟨rfl, rfl⟩
  refine (follows_integer _ _).bind ?_
  rintro cost _ rfl
  refine (follows_keyword _).bind ?_
  rintro _ _ rfl
  exact .pure (by simp [Operator.forms])

theorem follows_ruleBlock : Follows ruleBlock fun r forms => forms = r.forms := by
  refine (follows_keyword _).bind ?_
  rintro _ _ rfl
  refine (follows_facts _).bind ?_
  rintro conditions _ rfl
  refine (follows_ruleEnd conditions).imp ?_
  rintro r _ ⟨rfl, rfl⟩
  simp [Rule.forms]

theorem follows_version : Follows version fun _ forms =>
    forms = [.name "begin_version", .name "3", .name "end_version"] := by
  refine (follows_keyword _).bind ?_
  rintro _ _ rfl
  intro p p' u hread
  obtain ⟨l, p'', hline, hend⟩ := exists_of_bind hread
  obtain ⟨hrest, -⟩ := exists_of_line hline
  split at hend
  · next hl =>
    obtain ⟨lines, _, hrest', hfollowed, rfl⟩ := follows_keyword _ _ _ _ hend
    refine ⟨l :: lines, [.name "3", .name "end_version"], ?_, ⟨⟨?_, ?_, ?_⟩, ?_⟩, rfl⟩
    · rw [hrest, hrest', List.cons_append]
    · exact .cons (hl ▸ .name) hfollowed.spelled
    · apply Reads.line
      intro l' hl'
      rw [if_pos (hl'.trans hl)]
      exact hfollowed.reads
    · apply Needs.line
      intro l' hl'
      rw [if_pos (hl'.trans hl)]
      exact hfollowed.needs
    · apply refuses_of_unchecked
      simp [LineForm.unchecked_name]
  · cases hend

/-- All parts of a task. -/
def taskParts : Reader Task := do
  version
  keyword "begin_metric"
  let metric ← parsed "0 or 1" (Text.natural? 8)
  keyword "end_metric"
  let count ← natural "the number of variables"
  let vars ← times variableBlock count
  let mutexCount ← natural "the number of mutex groups"
  let mutexes ← times mutexBlock mutexCount
  keyword "begin_state"
  let init ← times (natural "an initial value") count
  keyword "end_state"
  keyword "begin_goal"
  let goal ← facts "the number of goals"
  keyword "end_goal"
  let operatorCount ← natural "the number of operators"
  let operators ← times operatorBlock operatorCount
  let ruleCount ← natural "the number of axioms"
  let rules ← times ruleBlock ruleCount
  Reader.pure ⟨metric != 0, vars, mutexes, init, goal, operators, rules⟩

/-- The parts are a task where the file ends behind them. -/
theorem task_eq : task = taskParts >>= fun t => endOfTask >>= fun _ => Reader.pure t := by
  simp only [task, taskParts, Reader.bind_assoc, Reader.pure_bind]

/-- The lines of a task are spellings of its forms. -/
theorem follows_taskParts : Follows taskParts fun t forms => forms = t.forms := by
  refine follows_version.bind ?_
  rintro _ _ rfl
  refine (follows_keyword _).bind ?_
  rintro _ _ rfl
  refine (follows_flag _ 8).bind ?_
  rintro metric _ rfl
  refine (follows_keyword _).bind ?_
  rintro _ _ rfl
  refine (follows_natural _).bind ?_
  rintro count _ rfl
  refine (follows_times follows_variableBlock count).bind ?_
  rintro vars _ ⟨hvars, rfl⟩
  refine (follows_natural _).bind ?_
  rintro mutexCount _ rfl
  refine (follows_times follows_mutexBlock mutexCount).bind ?_
  rintro mutexes _ ⟨rfl, rfl⟩
  refine (follows_keyword _).bind ?_
  rintro _ _ rfl
  refine (follows_times_lines (follows_natural _) count).bind ?_
  rintro init _ ⟨-, rfl⟩
  refine (follows_keyword _).bind ?_
  rintro _ _ rfl
  refine (follows_keyword _).bind ?_
  rintro _ _ rfl
  refine (follows_facts _).bind ?_
  rintro goal _ rfl
  refine (follows_keyword _).bind ?_
  rintro _ _ rfl
  refine (follows_natural _).bind ?_
  rintro operatorCount _ rfl
  refine (follows_times follows_operatorBlock operatorCount).bind ?_
  rintro operators _ ⟨rfl, rfl⟩
  refine (follows_natural _).bind ?_
  rintro ruleCount _ rfl
  refine (follows_times follows_ruleBlock ruleCount).bind ?_
  rintro rules _ ⟨rfl, rfl⟩
  exact .pure (by simp [Task.forms, hvars])

end TaskFile

end PlanConstraints

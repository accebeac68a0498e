import PlanConstraints.Proofs.Task.WellFormed
import PlanConstraints.Task.Reader

set_option autoImplicit false

/-!
# Tasks that were read

Every task that is read is well-formed (`wellFormed_of_read`).  What a reader finds is said by
`Finds`, which goes through the parts of a reader one after the other.
-/

namespace PlanConstraints

open Text (InRange)

namespace TaskFile

namespace Reader

variable {α β : Type}

/-- Whatever the reader finds has the property, as long as every line is filled. -/
def Finds (r : Reader α) (P : α → Prop) : Prop :=
  ∀ (p p' : Position) (a : α), (∀ l ∈ p.rest, IsLine l.trimmed) → r p = .ok (a, p') →
    P a ∧ ∀ l ∈ p'.rest, IsLine l.trimmed

theorem Finds.pure {P : α → Prop} {a : α} (h : P a) : Finds (Reader.pure a) P := by
  intro p p' a' hlines hread
  cases hread
  exact ⟨h, hlines⟩

theorem Finds.bind {P : α → Prop} {Q : β → Prop} {r : Reader α} {next : α → Reader β}
    (h : Finds r P) (hnext : ∀ a, P a → Finds (next a) Q) : Finds (r >>= next) Q := by
  intro p p' b hlines hread
  change Reader.bind r next p = .ok (b, p') at hread
  unfold Reader.bind at hread
  split at hread
  · cases hread
  · next a p'' hfirst =>
    obtain ⟨ha, hrest⟩ := h p p'' a hlines hfirst
    exact hnext a ha p'' p' b hrest hread

theorem Finds.imp {P Q : α → Prop} {r : Reader α} (h : Finds r P) (hPQ : ∀ a, P a → Q a) :
    Finds r Q := fun p p' a hlines hread => (h p p' a hlines hread).imp_left (hPQ a)

theorem finds_error {P : α → Prop} (e : FileError) : Finds (fun _ => .error e : Reader α) P :=
  fun _ _ _ _ hread => by cases hread

theorem finds_line (expected : String) : Finds (line expected) fun l => IsLine l.trimmed := by
  intro p p' l hlines hread
  unfold line at hread
  split at hread
  · cases hread
  · next l' rest hrest =>
    cases hread
    rw [hrest] at hlines
    exact List.forall_mem_cons.mp hlines

theorem finds_parsed (expected : String) {parse : String → Option α} {P : α → Prop}
    (h : ∀ text a, IsLine text → parse text = some a → P a) : Finds (parsed expected parse) P := by
  refine (finds_line expected).bind fun l hl => ?_
  split
  · next a ha => exact .pure (h _ a hl ha)
  · exact finds_error _

theorem finds_keyword (word : String) : Finds (keyword word) fun _ => True :=
  finds_parsed _ fun _ _ _ _ => trivial

theorem finds_text (expected : String) : Finds (text expected) IsLine :=
  finds_parsed _ fun _ _ hline heq => Option.some.inj heq ▸ hline

theorem finds_natural (expected : String) : Finds (natural expected) fun n => n < 2 ^ 64 :=
  finds_parsed _ fun _ _ _ hread => Text.natural?_lt hread

theorem finds_times {P : α → Prop} {r : Reader α} (h : Finds r P) (n : Nat) :
    Finds (times r n) fun as => as.length = n ∧ ∀ a ∈ as, P a := by
  induction n with
  | zero => exact .pure ⟨rfl, by simp⟩
  | succ n ih =>
    refine h.bind fun a ha => ih.bind fun as has => .pure ⟨?_, ?_⟩
    · rw [List.length_cons, has.1]
    · exact List.forall_mem_cons.mpr ⟨ha, has.2⟩

theorem finds_nonNegative (what : String) (n : Int) :
    Finds (nonNegative what n) fun m => (m : Int) = n := by
  intro p p' m hlines hread
  unfold nonNegative at hread
  split at hread
  · cases hread
  · cases hread
    exact ⟨Int.toNat_of_nonneg (by omega), hlines⟩

theorem finds_endOfTask : Finds endOfTask fun _ => True := by
  intro p p' u hlines hread
  unfold endOfTask at hread
  split at hread
  · cases hread
    exact ⟨trivial, hlines⟩
  · cases hread

end Reader

open Reader

/-! ## Numbers -/

theorem legible_of_factOf? {text : String} {f : Fact} (h : factOf? text = some f) : f.Legible := by
  unfold factOf? at h
  split at h
  · split at h
    · next hvar hvalue =>
      cases h
      exact ⟨Text.natural?_lt hvar, Text.natural?_lt hvalue⟩
    · cases h
  · cases h

/-- All numbers of a line have the width of integers. -/
theorem inRange_of_integers? {text : String} {ns : List Int} (h : integers? text = some ns) :
    ∀ n ∈ ns, InRange 64 n := by
  unfold integers? at h
  generalize Text.wordsOf text = words at h
  induction words generalizing ns with
  | nil =>
    cases h
    simp
  | cons word words ih =>
    rw [List.mapM_cons] at h
    obtain ⟨n, hn, hrest⟩ := Option.bind_eq_some_iff.mp h
    obtain ⟨ns', hns', heq⟩ := Option.bind_eq_some_iff.mp hrest
    cases heq
    exact List.forall_mem_cons.mpr ⟨Text.integer?_inRange hn, ih hns'⟩

namespace EffectNumbers

/-- The numbers of an effect are those of its list. -/
theorem of_ofList? {n : Nat} {ns : List Int} {e : EffectNumbers} (h : ofList? n ns = some e)
    (hns : ∀ m ∈ ns, InRange 64 m) :
    e.conditions.length = n ∧ InRange 64 e.var ∧ InRange 64 e.pre ∧ InRange 64 e.post := by
  fun_induction ofList? n ns generalizing e with
  | case1 var pre post =>
    cases h
    exact ⟨rfl, hns _ (by simp), hns _ (by simp), hns _ (by simp)⟩
  | case2 n var value rest ih =>
    obtain ⟨e', he', rfl⟩ := Option.map_eq_some_iff.mp h
    have hrest := ih he' fun m hm => hns m (List.mem_cons_of_mem _ (List.mem_cons_of_mem _ hm))
    exact ⟨congrArg (· + 1) hrest.1, hrest.2⟩
  | case3 => cases h

/-- The number of conditions of an effect is written as an integer. -/
theorem of_counted? {text : String} {e : EffectNumbers} (h : counted? text = some e) :
    e.conditions.length < 2 ^ 63 := by
  unfold counted? at h
  split at h
  · next word words n ns hwords hns =>
    split at h
    · next count hcount =>
      have hall := inRange_of_integers? hns
      have hlen := (of_ofList? h fun m hm => hall m (List.mem_cons_of_mem _ hm)).1
      have hn : Text.integer? 64 word = some n := by
        unfold integers? at hns
        rw [hwords, List.mapM_cons] at hns
        obtain ⟨n', hn', hrest⟩ := Option.bind_eq_some_iff.mp hns
        obtain ⟨ns', -, heq⟩ := Option.bind_eq_some_iff.mp hrest
        cases heq
        exact hn'
      have hlt := (hall n List.mem_cons_self).lt
      rw [Text.integer?_eq_natural? hcount hn] at hlt
      rw [hlen]
      exact_mod_cast hlt
    · cases h
  · cases h

theorem of_bare? {text : String} {e : EffectNumbers} (h : bare? text = some e) :
    InRange 64 e.var ∧ InRange 64 e.pre ∧ InRange 64 e.post := by
  unfold bare? at h
  split at h
  · next ns hns => exact (of_ofList? h (inRange_of_integers? hns)).2
  · cases h

end EffectNumbers

theorem finds_factsOf (pairs : List (Int × Int)) :
    Finds (factsOf pairs) fun fs => fs.length = pairs.length := by
  induction pairs with
  | nil => exact .pure rfl
  | cons pair pairs ih =>
    refine (finds_nonNegative _ _).bind fun var _ => (finds_nonNegative _ _).bind fun value _ =>
      ih.bind fun fs hfs => .pure ?_
    rw [List.length_cons, hfs, List.length_cons]

/-- The effect has the numbers that were read. -/
theorem finds_toEffect (e : EffectNumbers) :
    Finds e.toEffect fun effect => effect.conditions.length = e.conditions.length ∧
      (effect.var : Int) = e.var ∧ effect.pre = optionalOf e.pre ∧ (effect.post : Int) = e.post :=
  (finds_factsOf _).bind fun _ hconditions => (finds_nonNegative _ _).bind fun _ hvar =>
    (finds_nonNegative _ _).bind fun _ hpost => .pure ⟨hconditions, hvar, rfl, hpost⟩

theorem lt_of_mem_optionalOf {n : Int} (hn : InRange 64 n) {value : Nat}
    (h : value ∈ optionalOf n) : value < 2 ^ 63 := by
  have hlt := hn.lt
  rw [optionalOf, Option.mem_def] at h
  split at h
  · cases h
  · cases h
    omega

/-! ## Parts of a task -/

theorem finds_facts (expected : String) : Finds (facts expected) LegibleFacts :=
  (finds_natural expected).bind fun n hn =>
    (finds_times (finds_parsed _ fun _ _ _ => legible_of_factOf?) n).imp fun _ hfs =>
      ⟨hfs.1 ▸ hn, hfs.2⟩

theorem finds_variableBlock : Finds variableBlock Variable.Legible := by
  refine (finds_keyword _).bind fun _ _ => ?_
  refine (finds_text _).bind fun name hname => ?_
  refine (finds_parsed _ fun _ _ _ => Text.integer?_inRange).bind fun layer hlayer => ?_
  refine (finds_natural _).bind fun size _ => ?_
  refine (finds_times (finds_text _) size).bind fun values hvalues => ?_
  exact (finds_keyword _).bind fun _ _ => .pure ⟨hname, hlayer, hvalues.2⟩

theorem finds_mutexBlock : Finds mutexBlock LegibleFacts := by
  refine (finds_keyword _).bind fun _ _ => ?_
  refine (finds_facts _).bind fun group hgroup => ?_
  exact (finds_keyword _).bind fun _ _ => .pure hgroup

theorem finds_effectLine : Finds effectLine fun e => e.conditions.length < 2 ^ 63 := by
  refine (finds_parsed _ fun _ _ _ => EffectNumbers.of_counted?).bind fun numbers hlen => ?_
  exact (finds_toEffect numbers).imp fun effect heffect => heffect.1 ▸ hlen

theorem finds_operatorBlock : Finds operatorBlock Operator.Legible := by
  refine (finds_keyword _).bind fun _ _ => ?_
  refine (finds_text _).bind fun name hname => ?_
  refine (finds_facts _).bind fun prevail _ => ?_
  refine (finds_natural _).bind fun n _ => ?_
  refine (finds_times finds_effectLine n).bind fun effects heffects => ?_
  refine (finds_parsed _ fun _ _ _ => Text.integer?_inRange).bind fun cost hcost => ?_
  exact (finds_keyword _).bind fun _ _ => .pure ⟨hname, hcost, heffects.2⟩

theorem finds_ruleBlock : Finds ruleBlock Rule.Legible := by
  refine (finds_keyword _).bind fun _ _ => ?_
  refine (finds_facts _).bind fun conditions hconditions => ?_
  refine (finds_parsed _ fun _ _ _ => EffectNumbers.of_bare?).bind fun numbers hnumbers => ?_
  refine (finds_keyword _).bind fun _ _ => ?_
  refine (finds_toEffect numbers).bind fun effect heffect => .pure ?_
  obtain ⟨hvar, hpre, hpost⟩ := hnumbers
  obtain ⟨-, hvar', hpre', hpost'⟩ := heffect
  have hvarlt : (effect.var : Int) < 2 ^ 63 := hvar' ▸ hvar.lt
  have hpostlt : (effect.post : Int) < 2 ^ 63 := hpost' ▸ hpost.lt
  refine ⟨hconditions, ?_, fun value hvalue => ?_, ?_⟩
  · exact_mod_cast hvarlt
  · exact lt_of_mem_optionalOf hpre (hpre' ▸ hvalue)
  · exact_mod_cast hpostlt

theorem finds_version : Finds version fun _ => True := by
  refine (finds_keyword _).bind fun _ _ => ?_
  refine (finds_line _).bind fun l _ => ?_
  split
  · exact finds_keyword _
  · exact finds_error _

theorem finds_task : Finds task Task.Legible := by
  refine finds_version.bind fun _ _ => ?_
  refine (finds_keyword _).bind fun _ _ => ?_
  refine (finds_parsed _ (P := fun _ => True) fun _ _ _ _ => trivial).bind fun metric _ => ?_
  refine (finds_keyword _).bind fun _ _ => ?_
  refine (finds_natural _).bind fun count _ => ?_
  refine (finds_times finds_variableBlock count).bind fun vars hvars => ?_
  refine (finds_natural _).bind fun mutexCount hmutexCount => ?_
  refine (finds_times finds_mutexBlock mutexCount).bind fun mutexes hmutexes => ?_
  refine (finds_keyword _).bind fun _ _ => ?_
  refine (finds_times (finds_natural _) count).bind fun init _ => ?_
  refine (finds_keyword _).bind fun _ _ => ?_
  refine (finds_keyword _).bind fun _ _ => ?_
  refine (finds_facts _).bind fun goal _ => ?_
  refine (finds_keyword _).bind fun _ _ => ?_
  refine (finds_natural _).bind fun operatorCount _ => ?_
  refine (finds_times finds_operatorBlock operatorCount).bind fun operators hoperators => ?_
  refine (finds_natural _).bind fun ruleCount hruleCount => ?_
  refine (finds_times finds_ruleBlock ruleCount).bind fun rules hrules => ?_
  refine finds_endOfTask.bind fun _ _ => .pure ?_
  exact ⟨hvars.2, hmutexes.1 ▸ hmutexCount, hmutexes.2, hoperators.2, hrules.1 ▸ hruleCount,
    hrules.2⟩

/-- A task that was read is well-formed. -/
theorem wellFormed_of_read {input : Input} {t : Task} (h : read input = .ok t) : t.WellFormed := by
  unfold read at h
  split at h
  · cases h
  · next t' p hread =>
    split at h
    · cases h
    · next hcheck =>
      cases h
      refine ⟨(Task.check_eq_ok_iff t).mp hcheck, (finds_task _ _ _ (fun l hl => ?_) hread).1⟩
      obtain ⟨hmem, hblank⟩ := List.mem_filter.mp hl
      exact isLine_trimmed hmem (by simpa using hblank)

end TaskFile

end PlanConstraints

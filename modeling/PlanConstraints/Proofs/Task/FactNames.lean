import PlanConstraints.Proofs.Task.Additions
import PlanConstraints.Proofs.Task.Consistency

set_option autoImplicit false

/-!
# Facts by name in a task with additions

Facts are found by name among the names of values, the first one by variable and value.  Variables
whose values are no facts do not change what is found (`Task.AddsValues.findFact?`), and names of
values that change, but make no facts, matter for the facts of these values only
(`Task.MakesNoFacts.findFact?_eq_iff`).
-/

namespace PlanConstraints

/-! ## Names that are no facts -/

/-- The first character of the name is none of the mark of facts. -/
def StartsPlain (value : String) : Prop := ∀ c ∈ value.toList.head?, c ∉ factMark.toList

instance (value : String) : Decidable (StartsPlain value) :=
  Option.decidableForallMem value.toList.head?

/-- A mark in front of such a name makes a fact of it only if it is one of facts itself. -/
theorem StartsPlain.factOfValue?_append {value : String} (h : StartsPlain value) {mark : String}
    (hmark : ¬ factMark.toList <+: mark.toList) : factOfValue? (mark ++ value) = none := by
  rw [factOfValue?, if_neg]
  rw [List.isPrefixOf_iff_prefix, String.toList_append]
  intro hfront
  -- Both marks start the new name, so that one of them starts the other.
  rcases List.prefix_or_prefix_of_prefix hfront (List.prefix_append _ _) with hlong | ⟨rest, hrest⟩
  · exact hmark hlong
  · rw [← hrest, List.prefix_append_right_inj] at hfront
    cases rest with
    | nil => exact hmark (by simp [← hrest])
    | cons c cs =>
      obtain ⟨more, hmore⟩ := hfront
      refine h c (by rw [← hmore]; rfl) ?_
      rw [← hrest]
      simp

theorem StartsPlain.factOfValue? {value : String} (h : StartsPlain value) :
    PlanConstraints.factOfValue? value = none := by
  have hempty := h.factOfValue?_append (show ¬ factMark.toList <+: "".toList by decide)
  rwa [String.empty_append] at hempty

theorem startsPlain_append {word : String} (h : StartsPlain word) (hword : word ≠ "")
    (rest : String) : StartsPlain (word ++ rest) := by
  intro c hc
  obtain ⟨first, hfirst⟩ : ∃ first, word.toList.head? = some first :=
    ⟨_, List.head?_eq_some_head (by simpa using hword)⟩
  rw [String.toList_append, List.head?_append, hfirst, Option.some_or] at hc
  exact h c (hfirst.trans hc)

namespace Task

/-- The name of the value that a fact speaks of. -/
def valueOf? (t : Task) (f : Fact) : Option String :=
  t.vars[f.var]?.bind fun v => v.values[f.value]?

/-! ## What is found -/

/-- What is found is a fact of the name. -/
theorem factOfValue?_of_findFact? {t : Task} {name : String} {f : Fact}
    (h : t.findFact? name = some f) :
    ∃ value, t.valueOf? f = some value ∧ factOfValue? value = some (factName name) := by
  obtain ⟨i, v, value, hvar, hv, hvalue, hname⟩ := getElem?_of_findFactFrom h
  refine ⟨value, ?_, hname⟩
  rw [valueOf?, hvar, Nat.zero_add, hv, Option.bind_some, hvalue]

/-! ## Further variables -/

/-- What a name means does not change when there are more variables. -/
theorem findFact?_of_prefix {t t' : Task} (hvars : t.vars <+: t'.vars) {name : String} {f : Fact}
    (h : t.findFact? name = some f) : t'.findFact? name = some f := by
  obtain ⟨more, hmore⟩ := hvars
  rw [findFact?] at h
  rw [findFact?, ← hmore, findFactFrom_append, h]
  rfl

/-- The second task has the variables of the first one, and behind them others whose values have
names of a kind. -/
def AddsValues (kind : String → Prop) (t t' : Task) : Prop :=
  ∃ more, t'.vars = t.vars ++ more ∧ ∀ v ∈ more, ∀ value ∈ v.values, kind value

namespace AddsValues

variable {kind kind' : String → Prop} {t t' t'' : Task}

theorem refl (kind : String → Prop) (t : Task) : t.AddsValues kind t :=
  ⟨[], (List.append_nil _).symm, List.forall_mem_nil _⟩

theorem trans (h : t.AddsValues kind t') (h' : t'.AddsValues kind t'') : t.AddsValues kind t'' := by
  obtain ⟨more, hvars, hmore⟩ := h
  obtain ⟨more', hvars', hmore'⟩ := h'
  exact ⟨more ++ more', by rw [hvars', hvars, List.append_assoc],
    List.forall_mem_append.mpr ⟨hmore, hmore'⟩⟩

theorem imp (h : t.AddsValues kind t') (hkind : ∀ value, kind value → kind' value) :
    t.AddsValues kind' t' := by
  obtain ⟨more, hvars, hmore⟩ := h
  exact ⟨more, hvars, fun v hv value hvalue => hkind value (hmore v hv value hvalue)⟩

theorem addStateVariable (t : Task) {values : List String} (hvalues : ∀ value ∈ values, kind value)
    (init : Nat) : t.AddsValues kind (t.addStateVariable values init) :=
  ⟨_, rfl, List.forall_mem_singleton.mpr hvalues⟩

theorem addGoal (h : t.AddsValues kind t') (f : Fact) : t.AddsValues kind (t'.addGoal f) := h

theorem isPrefix (h : t.AddsValues kind t') : t.vars <+: t'.vars := by
  obtain ⟨more, hvars, -⟩ := h
  exact ⟨more, hvars.symm⟩

/-- Values that are no facts do not matter. -/
theorem findFact? (h : t.AddsValues (fun value => factOfValue? value = none) t') (name : String) :
    t'.findFact? name = t.findFact? name := by
  obtain ⟨more, hvars, hmore⟩ := h
  rw [Task.findFact?, Task.findFact?, hvars, findFactFrom_append, findFactFrom_eq_none _ hmore]
  simp

end AddsValues

/-! ## Other names for values -/

theorem AddsValues.renameValues {kind kind' : String → Prop} {t t' : Task}
    (h : t.AddsValues kind t') {rename : String → String}
    (hkind : ∀ value, kind value → kind' (rename value)) :
    (t.renameValues rename).AddsValues kind' (t'.renameValues rename) := by
  obtain ⟨more, hvars, hmore⟩ := h
  refine ⟨more.map (Variable.renameValues rename), ?_, ?_⟩
  · rw [Task.renameValues, hvars, List.map_append]
    rfl
  · exact List.forall_mem_map.mpr fun v hv => List.forall_mem_map.mpr fun value hvalue =>
      hkind value (hmore v hv value hvalue)

variable {rename : String → String} {name : String}

/-- A value with another name is no fact. -/
def MakesNoFacts (rename : String → String) : Prop :=
  ∀ value, rename value = value ∨ factOfValue? (rename value) = none

theorem MakesNoFacts.ne (h : MakesNoFacts rename) {value : String}
    (hvalue : factOfValue? value ≠ some name) : factOfValue? (rename value) ≠ some name := by
  rcases h value with hsame | hnone
  · rwa [hsame]
  · rw [hnone]
    exact Option.some_ne_none name |>.symm

theorem MakesNoFacts.findValue_map (h : MakesNoFacts rename) {values : List String}
    {number i : Nat} (hfind : findValue name number values = some i)
    (hsame : ∀ j value, i = number + j → values[j]? = some value → rename value = value) :
    findValue name number (values.map rename) = some i := by
  induction values generalizing number with
  | nil => simp [findValue] at hfind
  | cons value values ih =>
    rw [List.map_cons]
    unfold findValue at hfind ⊢
    split at hfind
    · next hname =>
      cases hfind
      rw [hsame 0 value rfl rfl, if_pos hname]
    · next hname =>
      rw [if_neg (h.ne hname)]
      exact ih hfind fun j value' hj => hsame (j + 1) value' (by omega)

theorem MakesNoFacts.findFactFrom_map (h : MakesNoFacts rename) {vs : List Variable} {var : Nat}
    {f : Fact} (hfind : findFactFrom name var vs = some f)
    (hsame : ∀ (i : Nat) (v : Variable) (value : String), f.var = var + i → vs[i]? = some v →
      v.values[f.value]? = some value → rename value = value) :
    findFactFrom name var (vs.map (Variable.renameValues rename)) = some f := by
  induction vs generalizing var with
  | nil => simp [findFactFrom] at hfind
  | cons v vs ih =>
    rw [List.map_cons]
    unfold findFactFrom at hfind ⊢
    rw [Variable.renameValues]
    split at hfind
    · next number hnumber =>
      cases hfind
      rw [h.findValue_map hnumber fun j value hj hvalue => hsame 0 v value rfl rfl ?_]
      simpa [hj] using hvalue
    · next hnone =>
      have hnone' : findValue name 0 (v.values.map rename) = none :=
        (findValue_eq_none_iff 0).mpr (List.forall_mem_map.mpr fun value hvalue =>
          h.ne ((findValue_eq_none_iff 0).mp hnone value hvalue))
      rw [hnone']
      exact ih hfind fun i w value hvar => hsame (i + 1) w value (by
        rw [hvar, Nat.add_right_comm, Nat.add_assoc])

theorem valueOf?_renameValues (rename : String → String) (t : Task) (f : Fact) :
    (t.renameValues rename).valueOf? f = (t.valueOf? f).map rename := by
  rw [valueOf?, valueOf?, renameValues, List.getElem?_map]
  cases t.vars[f.var]? with
  | none => rfl
  | some v => simp [Variable.renameValues]

/-- With other names for values, a name means what it did exactly if the value that it means keeps
its name. -/
theorem MakesNoFacts.findFact?_eq_iff (h : MakesNoFacts rename) (t : Task) (name : String) :
    (t.renameValues rename).findFact? name = t.findFact? name ↔
      ∀ f value, t.findFact? name = some f → t.valueOf? f = some value → rename value = value := by
  constructor
  · intro hfind f value hf hvalue
    rw [hf] at hfind
    obtain ⟨value', hvalue', hname⟩ := factOfValue?_of_findFact? hfind
    rw [valueOf?_renameValues, hvalue, Option.map_some] at hvalue'
    cases hvalue'
    refine (h value).resolve_right fun hnone => ?_
    rw [hnone] at hname
    cases hname
  · intro hsame
    cases hfind : t.findFact? name with
    | none =>
      refine (findFactFrom_eq_none_iff 0).mpr (List.forall_mem_map.mpr fun v hv =>
        List.forall_mem_map.mpr fun value hvalue => h.ne ?_)
      exact (findFactFrom_eq_none_iff 0).mp hfind v hv value hvalue
    | some f =>
      refine h.findFactFrom_map hfind fun i v value hvar hv hvalue => hsame f value hfind ?_
      rw [valueOf?, hvar, Nat.zero_add, hv, Option.bind_some, hvalue]

end Task

end PlanConstraints

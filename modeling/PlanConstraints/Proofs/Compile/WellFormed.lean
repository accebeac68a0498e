import PlanConstraints.Compile.ActionSets
import PlanConstraints.Proofs.Property.Legible
import PlanConstraints.Proofs.Task.WellFormed

set_option autoImplicit false

/-!
# Compiled tasks are well-formed: action sets

Every step of the compilation of properties over action sets keeps the task well-formed, and the
variables of the task stay what they are (`Task.GrowsTo`): so what the new operators speak of exists
in the task that they are added to (`wellFormed_compileActionSets`).
-/

namespace PlanConstraints

/-! ## Recording the use of sets -/

namespace Recording

/-- The task is well-formed, and the variables for the sets have two values. -/
structure WellFormed (r : Recording) : Prop where
  task : r.task.WellFormed
  usedVars : ∀ p ∈ r.usedVars, r.task.IsSwitch p.2

variable {r : Recording}

theorem vars_prefix_add (count : Nat) (r : Recording) (s : ActionSet) :
    r.task.vars <+: (r.add count s).task.vars :=
  List.prefix_append _ _

theorem WellFormed.add (h : r.WellFormed) (count : Nat) {s : ActionSet} (hs : IsLine s.name) :
    (r.add count s).WellFormed := by
  have hgrows := r.task.vars_prefix_addStateVariable (usedValues s.name) 0
  have hswitch : (r.task.addStateVariable (usedValues s.name) 0).IsSwitch r.task.nextVar :=
    r.task.isSwitch_addStateVariable 0 (Nat.le_refl 2)
  have htask : (r.task.addStateVariable (usedValues s.name) 0).WellFormed :=
    h.task.addSwitch (IsLine.append_append (by decide) hs) (IsLine.append_append (by decide) hs)
      (by decide)
  refine ⟨htask.withOperators fun op hop => ?_, fun p hp => ?_⟩
  · rcases List.mem_append.mp hop with hop | hop
    · obtain ⟨old, hold, rfl⟩ := List.mem_map.mp hop
      have hadmits := (h.task.admits (List.mem_of_mem_take hold)).mono hgrows
      unfold Operator.record
      split
      · rw [Operator.addEffect_eq_extend]
        refine hadmits.extend (List.forall_mem_nil _) (List.forall_mem_singleton.mpr ?_)
        exact Task.admitsEffect_assign (fun _ hvalue => by cases hvalue) (hswitch 1 (by decide))
      · exact hadmits
    · exact (h.task.admits (List.mem_of_mem_drop hop)).mono hgrows
  · rcases List.mem_append.mp hp with hp | hp
    · exact (h.usedVars p hp).mono hgrows
    · rw [List.mem_singleton.mp hp]
      exact hswitch

theorem WellFormed.foldl_add (h : r.WellFormed) (count : Nat) {sets : List ActionSet}
    (hsets : ∀ s ∈ sets, IsLine s.name) :
    (sets.foldl (Recording.add count) r).WellFormed ∧
      r.task.vars <+: (sets.foldl (Recording.add count) r).task.vars := by
  induction sets generalizing r with
  | nil => exact ⟨h, List.prefix_refl _⟩
  | cons s sets ih =>
    obtain ⟨hs, hsets⟩ := List.forall_mem_cons.mp hsets
    obtain ⟨hwell, hvars⟩ := ih (h.add count hs) hsets
    exact ⟨hwell, (r.vars_prefix_add count s).trans hvars⟩

end Recording

/-- Recording the use of sets keeps the task well-formed. -/
theorem wellFormed_recordSets {t : Task} (h : t.WellFormed) (count : Nat) {sets : ActionSets}
    (hsets : ∀ s ∈ sets.sets, IsLine s.name) :
    t.GrowsTo (recordSets t count sets).task ∧ (recordSets t count sets).WellFormed := by
  have hstart : Recording.WellFormed ⟨t, [], []⟩ := ⟨h, List.forall_mem_nil _⟩
  obtain ⟨hwell, hvars⟩ := hstart.foldl_add count hsets
  exact ⟨⟨hvars, hwell.task⟩, hwell⟩

/-! ## Phases and properties -/

variable {t : Task}

theorem wellFormed_addPhases (h : t.WellFormed) :
    t.GrowsTo (addPhases t) ∧ (addPhases t).IsSwitch t.nextVar := by
  have hgrows := t.vars_prefix_addStateVariable ["phase_0", "phase_1"] 0
  have hphased : (t.addStateVariable ["phase_0", "phase_1"] 0).WellFormed :=
    h.addSwitch (by decide) (by decide) (by decide)
  have hswitch : (t.addStateVariable ["phase_0", "phase_1"] 0).IsSwitch t.nextVar :=
    t.isSwitch_addStateVariable 0 (Nat.le_refl 2)
  have hmapped : ((t.addStateVariable ["phase_0", "phase_1"] 0).mapOperators fun op =>
      op.addPrevail ⟨t.nextVar, 0⟩).WellFormed := hphased.mapOperators fun op hop => by
    rw [Operator.addPrevail_eq_extend]
    exact hop.extend (List.forall_mem_singleton.mpr (hswitch 0 (by decide)))
      (List.forall_mem_nil _)
  refine ⟨⟨hgrows, hmapped.addOperator ?_⟩, hswitch⟩
  refine Task.admits_new (by decide) (List.forall_mem_nil _) (List.forall_mem_singleton.mpr ?_)
  refine Task.admitsEffect_assign (fun value hvalue => ?_) (hswitch 1 (by decide))
  cases hvalue
  exact hswitch 0 (by decide)

theorem isLine_kind (p : Property) : IsLine p.kind := by
  unfold Property.kind
  split <;> decide

theorem wellFormed_addSatisfaction (h : t.WellFormed) {p : Property} (hp : p.Legible)
    (addGoals : Bool) :
    t.GrowsTo (addSatisfaction addGoals t p) ∧ (addSatisfaction addGoals t p).IsSwitch t.nextVar :=
  h.addGoalSwitch ((isLine_kind p).append hp.name (by decide))
    ((isLine_kind p).append hp.name (by decide)) (by decide) addGoals

theorem nextVar_addSatisfaction (addGoals : Bool) (t : Task) (p : Property) :
    (addSatisfaction addGoals t p).nextVar = t.nextVar + 1 := by
  cases addGoals <;> exact List.length_append

/-- Adding the variables of properties keeps the task well-formed. -/
theorem wellFormed_foldl_addSatisfaction (h : t.WellFormed) {ps : List Property}
    (hps : ∀ p ∈ ps, p.Legible) (addGoals : Bool) :
    t.GrowsTo (ps.foldl (addSatisfaction addGoals) t) ∧
      ∀ var ∈ satisfactionVars t.nextVar ps,
        (ps.foldl (addSatisfaction addGoals) t).IsSwitch var := by
  induction ps generalizing t with
  | nil => exact ⟨h.growsTo, List.forall_mem_nil _⟩
  | cons p ps ih =>
    obtain ⟨hp, hps⟩ := List.forall_mem_cons.mp hps
    obtain ⟨hgrows, hswitch⟩ := wellFormed_addSatisfaction h hp addGoals
    obtain ⟨hrest, hswitches⟩ := ih hgrows.wellFormed hps
    rw [nextVar_addSatisfaction] at hswitches
    refine ⟨hgrows.trans hrest, ?_⟩
    rw [satisfactionVars, List.length_cons, List.range'_succ, List.forall_mem_cons]
    exact ⟨hswitch.mono hrest.vars, hswitches⟩

/-! ## Checking operators -/

/-- The condition of a literal is on the variable of a set. -/
theorem inDomain_of_literalTest {usedVars : List (String × VarId)}
    (hused : ∀ p ∈ usedVars, t.IsSwitch p.2) {p : Property} {l : Literal Symbol} {f : Fact}
    (h : literalTest usedVars p l = .ok f) : t.InDomain f := by
  unfold literalTest at h
  split at h
  · next var hvar =>
    cases h
    exact (Task.IsSwitch.of_lookup hused hvar).ite _ 0 1 (by decide) (by decide)
  · cases h

/-- What the checking operators of a property speak of exists. -/
structure Checking.WellFormed (t : Task) (c : Checking) : Prop where
  property : c.property.Legible
  label : IsLine c.label
  phase : t.IsSwitch c.phase
  satisfaction : t.IsSwitch c.satisfaction
  value : c.value < 2

theorem Checking.WellFormed.operator {c : Checking} (h : c.WellFormed t) (number : Nat)
    {tests : List Fact} (htests : ∀ f ∈ tests, t.InDomain f) :
    t.Admits (c.operator number tests) := by
  have hname : IsLine (c.label ++ c.property.name.name ++ "_" ++ toString number) :=
    (IsLine.append_append h.label h.property.name).append (Text.isWord_natural number).isLine
      (by decide)
  refine Task.admits_new hname ?_ ?_
  · exact List.forall_mem_append.mpr ⟨htests,
      List.forall_mem_singleton.mpr (h.phase 1 (by decide))⟩
  · exact List.forall_mem_singleton.mpr (Task.admitsEffect_assign
      (fun _ hvalue => by cases hvalue) (h.satisfaction c.value h.value))

theorem Checking.WellFormed.operators {c : Checking} (h : c.WellFormed t)
    {usedVars : List (String × VarId)} (hused : ∀ p ∈ usedVars, t.IsSwitch p.2) {number : Nat}
    {clauses : List (Clause Symbol)} {ops : List Operator}
    (hops : c.operators usedVars number clauses = .ok ops) : ∀ op ∈ ops, t.Admits op := by
  induction clauses generalizing number ops with
  | nil =>
    cases hops
    exact List.forall_mem_nil _
  | cons clause clauses ih =>
    unfold Checking.operators at hops
    split at hops
    · cases hops
    · next tests htests =>
      split at hops
      · cases hops
      · next more hmore =>
        cases hops
        have hrest := ih hmore
        split
        · exact hrest
        · refine List.forall_mem_cons.mpr ⟨h.operator number fun f hf => ?_, hrest⟩
          obtain ⟨l, -, hl⟩ := mem_of_mem_traverse htests hf
          exact inDomain_of_literalTest hused hl

theorem Checking.WellFormed.checkFormula {c : Checking} (h : c.WellFormed t)
    {usedVars : List (String × VarId)} (hused : ∀ p ∈ usedVars, t.IsSwitch p.2)
    {f : Formula Symbol} {ops : List Operator}
    (hops : PlanConstraints.checkFormula usedVars c f = .ok ops) : ∀ op ∈ ops, t.Admits op := by
  unfold PlanConstraints.checkFormula at hops
  split at hops
  · cases hops
  · exact h.operators hused hops

/-- The operators that check a property speak of what exists. -/
theorem admits_of_checkProperty {usedVars : List (String × VarId)}
    (hused : ∀ p ∈ usedVars, t.IsSwitch p.2) {phase : VarId} (hphase : t.IsSwitch phase)
    {negative : Bool} {p : Property × VarId} (hp : p.1.Legible) (hvar : t.IsSwitch p.2)
    {ops : List Operator} (h : checkProperty usedVars phase negative p = .ok ops) :
    ∀ op ∈ ops, t.Admits op := by
  unfold checkProperty at h
  split at h
  · cases h
  · next checks hchecks =>
    have hlabel : IsLine "check_" ∧ IsLine "neg_check_" := by decide
    have hvalue : 0 < 2 ∧ 1 < 2 := by decide
    have hchecked : ∀ op ∈ checks, t.Admits op := Checking.WellFormed.checkFormula
      ⟨hp, hlabel.1, hphase, hvar, hvalue.2⟩ hused hchecks
    split at h
    · split at h
      · cases h
      · next negated hnegated =>
        cases h
        exact List.forall_mem_append.mpr ⟨hchecked, Checking.WellFormed.checkFormula
          ⟨hp, hlabel.2, hphase, hvar, hvalue.1⟩ hused hnegated⟩
    · cases h
      exact hchecked

/-! ## Soft goals -/

theorem isLine_markValue {mark : String} (hmark : IsLine mark) (softGoals : List String)
    {value : String} (hvalue : IsLine value) : IsLine (markValue mark softGoals value) := by
  rcases markValue_cases mark softGoals value with ⟨-, -, hmarked⟩ | hsame
  · rw [hmarked]
    exact hmark.append_append hvalue
  · rw [hsame]
    exact hvalue

theorem inDomain_markSoftGoals (mark : String) (softGoals : List String) {f : Fact}
    (h : t.InDomain f) : (markSoftGoals mark softGoals t).InDomain f := by
  obtain ⟨v, hv, hlt⟩ := h
  refine ⟨{ v with values := v.values.map (markValue mark softGoals) }, ?_, ?_⟩
  · rw [markSoftGoals, List.getElem?_map, hv]
    rfl
  · rw [List.length_map]
    exact hlt

theorem wellFormed_markSoftGoals (h : t.WellFormed) {mark : String} (hmark : IsLine mark)
    (softGoals : List String) : (markSoftGoals mark softGoals t).WellFormed where
  consistent := by
    refine ⟨?_, fun v hv => ?_, fun var value hvalue => ?_, fun f hf => ?_, fun op hop f hf => ?_⟩
    · rw [markSoftGoals, List.length_map]
      exact h.consistent.length_init
    · obtain ⟨old, hold, rfl⟩ := List.mem_map.mp hv
      rw [List.length_map]
      exact h.consistent.two_le old hold
    · exact inDomain_markSoftGoals mark softGoals (h.consistent.init var value hvalue)
    · exact inDomain_markSoftGoals mark softGoals (h.consistent.goal f hf)
    · exact inDomain_markSoftGoals mark softGoals (h.consistent.operator op hop f hf)
  legible := by
    refine { h.legible with vars := fun v hv => ?_ }
    obtain ⟨old, hold, rfl⟩ := List.mem_map.mp hv
    obtain ⟨hname, hlayer, hvalues⟩ := h.legible.vars old hold
    exact ⟨hname, hlayer, List.forall_mem_map.mpr fun value hvalue =>
      isLine_markValue hmark softGoals (hvalues value hvalue)⟩

/-! ## Compilation -/

/-- Compiling properties over action sets keeps the task well-formed. -/
theorem wellFormed_compileActionSets (h : t.WellFormed) {set : PropertySet} (hset : set.Legible)
    {options : CompileOptions} (hmark : IsLine options.softMark) {compiled : Compiled}
    (hcompile : compileActionSets options t set = .ok compiled) : compiled.task.WellFormed := by
  unfold compileActionSets at hcompile
  simp only at hcompile
  split at hcompile
  · cases hcompile
  · next ops hops =>
    cases hcompile
    refine wellFormed_markSoftGoals ?_ hmark set.softGoals
    obtain ⟨hphased, hphase⟩ := wellFormed_addPhases h
    obtain ⟨hproperties, hsatisfaction⟩ :=
      wellFormed_foldl_addSatisfaction hphased.wellFormed hset.properties options.addGoals
    obtain ⟨hrecorded, hused⟩ :=
      wellFormed_recordSets hproperties.wellFormed t.operators.length hset.sets
    refine hused.task.withOperators (List.forall_mem_append.mpr
      ⟨fun op hop => hused.task.admits hop, fun op hop => ?_⟩)
    obtain ⟨checks, hchecks, hop⟩ := List.mem_flatten.mp hop
    obtain ⟨p, hp, hcheck⟩ := mem_of_mem_traverse hops hchecks
    obtain ⟨hproperty, hvar⟩ := List.of_mem_zip hp
    exact admits_of_checkProperty hused.usedVars
      (hphase.mono (hproperties.vars.trans hrecorded.vars)) (hset.properties p.1 hproperty)
      ((hsatisfaction p.2 hvar).mono hrecorded.vars) hcheck op hop

end PlanConstraints

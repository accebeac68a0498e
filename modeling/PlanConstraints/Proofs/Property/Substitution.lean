import Mathlib.Data.List.Nodup
import PlanConstraints.Proofs.ActionSet.Matching
import PlanConstraints.Proofs.Formula.Truth
import PlanConstraints.Proofs.Property.Classes

set_option autoImplicit false

/-!
# What instances of a class mean

If the sets of all instances of a class get names that are different and new, an instance of a
property says of the operators what the property says when the parameters stand for the arguments
(`eval_instance`).  The sets and the atoms are renamed in different ways, which have to lead to the
same names, and the arguments are put for all parameters at once.
-/

namespace PlanConstraints

/-! ## Arguments for parameters -/

/-- The word, or the argument for it if it is a parameter. -/
def argumentAt (params args : List String) (word : String) : String :=
  ((params.idxOf? word).bind fun i => args[i]?).getD word

namespace SetBlock

theorem name_argumentFor {params args : List Symbol} (hlen : args.length = params.length)
    (word : Symbol) :
    (argumentFor params args word).name =
      argumentAt (params.map Symbol.name) (args.map Symbol.name) word.name := by
  unfold argumentFor argumentAt
  induction params generalizing args with
  | nil => rfl
  | cons p params ih =>
    cases args with
    | nil => cases hlen
    | cons a args =>
      simp only [List.zip_cons_cons, List.find?_cons, List.map_cons, List.idxOf?_cons]
      by_cases hp : p.name = word.name
      · simp [hp, Symbol.rename]
      · simp only [hp, decide_false, beq_iff_eq, if_false]
        rw [ih (Nat.succ.inj hlen)]
        cases (params.map Symbol.name).idxOf? word.name <;> rfl

theorem mem_instances {blocks : List SetBlock} (params : List Symbol)
    {argss : List (List Symbol)} {args : List Symbol} (hargs : args ∈ argss) {b : SetBlock}
    (hb : b ∈ blocks) : b.instantiate params args ∈ instances blocks params argss :=
  List.mem_flatMap.mpr ⟨args, hargs, List.mem_map.mpr ⟨b, hb, rfl⟩⟩

end SetBlock

/-! ## Sets that are used -/

/-- The set of the name contains one of the operators. -/
def PropertySet.isUsed (set : PropertySet) (operators : List String) (name : String) : Bool :=
  (set.actionSets.get? name).any fun s => operators.any s.containsOperator

namespace PropertyFile

/-- One of the operators matches a line of the set of the name in the class, with arguments in the
place of parameters. -/
def ClassDraft.isUsed (w : World) (d : ClassDraft) (args : List Symbol) (operators : List String)
    (name : String) : Bool :=
  let substitute := argumentAt (d.params.map Symbol.name) (args.map Symbol.name)
  (d.blocks.find? fun b => b.name.name = name).any fun b => operators.any fun operator =>
    b.lines.any fun line =>
      Template.matchesOperator w (line.map fun word => substitute word.name) operator

/-- An operator belongs to an instance of a set exactly if it matches a line of the set with
arguments in the place of parameters. -/
theorem containsOperator_instantiate {w : World} {b : SetBlock} {params args : List Symbol}
    {s : ActionSet} (hlen : args.length = params.length)
    (h : ActionSet.ofBlock w (b.instantiate params args) = .ok s) (operator : String) :
    s.containsOperator operator = b.lines.any fun line =>
      Template.matchesOperator w
        (line.map fun word =>
          argumentAt (params.map Symbol.name) (args.map Symbol.name) word.name) operator := by
  rw [ActionSet.containsOperator_ofBlock h, SetBlock.instantiate, List.any_map]
  simp only [Function.comp_def, List.map_map, SetBlock.name_argumentFor hlen]

/-! ## Bodies of classes -/

/-- A property that is declared is propositional. -/
def Item.IsPropositional : Item → Prop
  | .set _ => True
  | .property p => p.formula.isPropositional = true

/-- The properties of the class are propositional. -/
def ClassDraft.IsPropositional (d : ClassDraft) : Prop :=
  ∀ p ∈ d.properties, p.formula.isPropositional = true

/-- The class that is being read. -/
def Place.draft? : Place → Option ClassDraft
  | .outside | .block _ | .softGoals => none
  | .classHead d | .classBody d _ | .instancesHead d | .instances d => some d

/-- The properties of the class that is being read are propositional. -/
def State.IsPropositional (s : State) : Prop := ∀ d, s.place.draft? = some d → d.IsPropositional

section

variable {w : World} {dialect : Dialect} {line : Line} {d : ClassDraft}

theorem isPropositional_of_opens {read : Block ⊕ Item} (h : Opens line read) :
    ∀ item, read = .inr item → item.IsPropositional := by
  rintro item rfl
  rcases h with h | ⟨soft, h⟩
  · unfold openSet at h
    split at h
    · split at h <;> cases h
      trivial
    · cases h
  · unfold openProperty at h
    split at h <;> cases h

theorem isPropositional_of_readLine {block : Block} {read : Block ⊕ Item}
    (h : block.readLine true line = .ok read) :
    ∀ item, read = .inr item → item.IsPropositional := by
  rintro item rfl
  cases block with
  | set name missing lines =>
    unfold Block.readLine at h
    simp only at h
    split at h <;> cases h
    trivial
  | property name soft =>
    unfold Block.readLine at h
    simp only [if_true] at h
    split at h
    · cases h
    · next formula hformula =>
      cases h
      exact (Formula.propositionalOfWords_eq_ok_iff.mp hformula).2

theorem draft?_of_continueBlock {r : PropertySet} {read : Block ⊕ Item} {s : State}
    (h : continueBlock w dialect r read = .ok s) : s.place.draft? = none := by
  unfold continueBlock at h
  split at h
  · cases h
    rfl
  · split at h <;> cases h
    rfl

theorem draft?_of_ofHeader {soft : Bool} {place : Place}
    (h : ClassDraft.ofHeader line soft = .ok place) :
    ∀ d, place.draft? = some d → d.properties = [] := by
  unfold ClassDraft.ofHeader at h
  simp only at h
  split at h
  · cases h
  · split at h <;> cases h <;> (intro d hd; cases hd; rfl)

namespace ClassDraft

theorem IsPropositional.addItem (hd : d.IsPropositional) {item : Item}
    (hitem : item.IsPropositional) : (d.addItem item).IsPropositional := by
  cases item with
  | set block => exact hd
  | property p =>
    exact List.forall_mem_append.mpr ⟨hd, List.forall_mem_singleton.mpr hitem⟩

theorem IsPropositional.continueBlock (hd : d.IsPropositional) {read : Block ⊕ Item}
    (hread : ∀ item, read = .inr item → item.IsPropositional) :
    ∀ d', (d.continueBlock read).draft? = some d' → d'.IsPropositional := by
  intro d' hd'
  cases read with
  | inl block =>
    cases hd'
    exact hd
  | inr item =>
    cases hd'
    exact hd.addItem (hread item rfl)

end ClassDraft

/-- Every line keeps the properties of classes propositional. -/
theorem State.IsPropositional.step {s s' : State} (hs : s.IsPropositional)
    (h : Step w dialect line s s') : s'.IsPropositional := by
  have hnone : s'.place.draft? = none → s'.IsPropositional := fun hplace d hd => by
    rw [hplace] at hd
    cases hd
  cases h with
  | stay => exact hs
  | endGoals => exact hnone rfl
  | openBlock _ hcontinue => exact hnone (draft?_of_continueBlock hcontinue)
  | openClass hheader =>
    intro d hd p hp
    rw [draft?_of_ofHeader hheader d hd] at hp
    cases hp
  | openGoals => exact hnone rfl
  | inBlock _ hcontinue => exact hnone (draft?_of_continueBlock hcontinue)
  | goal => exact hnone rfl
  | openBody => exact hs
  | inBody hread =>
    intro d' hd'
    rcases ClassDraft.readBody_eq_ok hread with rfl | rfl | ⟨read, hopens, rfl⟩
    · exact hs d' hd'
    · exact hs d' hd'
    · exact (hs _ rfl).continueBlock (isPropositional_of_opens hopens) d' hd'
  | inBodyBlock hread =>
    exact (hs _ rfl).continueBlock (isPropositional_of_readLine hread)
  | openInstances => exact hs
  | addInstance hread =>
    obtain ⟨app, -, -, rfl⟩ := ClassDraft.readInstance_eq_ok hread
    intro d' hd'
    cases hd'
    have hsame : ClassDraft.IsPropositional _ := hs _ rfl
    exact hsame
  | finish => exact hnone rfl

/-- The properties of a class are propositional. -/
theorem isPropositional_of_classAfter? {input : Input} {n : Nat} {before : PropertySet}
    {instances : List (List Symbol)}
    (h : classAfter? w input n = some (before, d, instances)) : d.IsPropositional := by
  obtain ⟨hfront, -, -⟩ := classAfter?_eq_some h
  have hstate := foldSteps_invariant State.IsPropositional hfront
    (fun d hd => by cases hd) fun _ _ _ _ hu hstep => hu.step (step_of_readLine hstep)
  exact hstate d rfl

/-! ## Instances -/

variable {input : Input} {n : Nat} {before set : PropertySet} {instances : List (List Symbol)}
  {args : List Symbol}

/-- In an accepted file, the sets and the properties of all instances of a class are added. -/
theorem exists_addInstances (hread : read w .actionSets input = .ok set)
    (hclass : classAfter? w input n = some (before, d, instances)) :
    (∃ after, foldSteps (addBlock w) before (SetBlock.instances d.blocks d.params instances) =
        .ok after ∧ after.actionSets.sets <+: set.actionSets.sets) ∧
      ∀ args ∈ instances, args.length = d.params.length ∧
        ∀ p ∈ d.properties, p.withSuffix (ClassDraft.suffix args) ∈ set.properties := by
  obtain ⟨-, ⟨hblocks, hproperties⟩, -⟩ := classAfter?_eq_some hclass
  obtain ⟨hlen, _, hfinish, hkeeps⟩ := exists_finish hread hclass
  rw [ClassDraft.addInstances_eq, hblocks, hproperties, List.nil_append, List.nil_append] at hfinish
  unfold ClassDraft.finish at hfinish
  split at hfinish
  · cases hfinish
  · next after hafter =>
    cases hfinish
    refine ⟨⟨after, hafter, hkeeps.sets⟩, fun args hargs => ⟨hlen args hargs, fun p hp => ?_⟩⟩
    refine hkeeps.properties.subset (List.mem_append_right _ ?_)
    exact List.mem_flatMap.mpr ⟨args, hargs, List.mem_map.mpr ⟨p, hp, rfl⟩⟩

/-- If the sets of all instances get names that are different and new, the one of an instance
contains some operator exactly if it matches the set of the class with arguments in the place of
parameters. -/
theorem isUsed_instanceName (hread : read w .actionSets input = .ok set)
    (hclass : classAfter? w input n = some (before, d, instances))
    (hnodup : ((SetBlock.instances d.blocks d.params instances).map fun b => b.name.name).Nodup)
    (hnew : ∀ b ∈ SetBlock.instances d.blocks d.params instances,
      before.actionSets.contains b.name.name = false)
    (hargs : args ∈ instances) {name : String} (hname : ∃ b ∈ d.blocks, b.name.name = name)
    (operators : List String) :
    set.isUsed operators (SetBlock.instanceName name args) = d.isUsed w args operators name := by
  obtain ⟨⟨after, hafter, hsets⟩, hinstances⟩ := exists_addInstances hread hclass
  -- Only the first set of the name counts, in the class as in the file.
  cases hfound : d.blocks.find? fun b => b.name.name = name with
  | none =>
    obtain ⟨b, hb, hname⟩ := hname
    exact absurd (decide_eq_true hname) (List.find?_eq_none.mp hfound b hb)
  | some b =>
    have hmem := SetBlock.mem_instances d.params hargs (List.mem_of_find?_eq_some hfound)
    obtain rfl : b.name.name = name := by simpa using List.find?_some hfound
    obtain ⟨s, hs, hget⟩ := get?_foldSteps_addBlock hafter
      (by simpa [ActionSets.contains] using hnew _ hmem)
      (find?_of_nodup (fun b : SetBlock => b.name.name) hnodup hmem)
    have hcontains : s.containsOperator = _ :=
      funext (containsOperator_instantiate (hinstances args hargs).1 hs)
    unfold PropertySet.isUsed ClassDraft.isUsed
    rw [SetBlock.name_instantiate] at hget
    rw [ActionSets.get?_of_prefix hsets hget, hfound, Option.any_some, Option.any_some, hcontains]

/-- If the sets of the instances of a class get names that are different from each other and from
those of earlier sets, then an instance of a property is declared and says of any operators what the
property of the class says, when the name of a set means that some operator matches a line of the
set with arguments in the place of parameters.

`hnodup` and `hnew` bear the load: of two sets with one name the second is dropped, and the property
would speak about the first.  `hatoms` says that the property of the class speaks about sets of the
class. -/
theorem eval_instance (hread : read w .actionSets input = .ok set)
    (hclass : classAfter? w input n = some (before, d, instances))
    (hnodup : ((SetBlock.instances d.blocks d.params instances).map fun b => b.name.name).Nodup)
    (hnew : ∀ b ∈ SetBlock.instances d.blocks d.params instances,
      before.actionSets.contains b.name.name = false)
    (hargs : args ∈ instances) {p : Property} (hp : p ∈ d.properties)
    (hatoms : ∀ a ∈ p.formula.atoms, ∃ b ∈ d.blocks, b.name.name = a.name) :
    p.withSuffix (ClassDraft.suffix args) ∈ set.properties ∧
      ∀ operators : List String, ∃ truth,
        (p.withSuffix (ClassDraft.suffix args)).formula.eval
            (fun a => set.isUsed operators a.name) = .ok truth ∧
          p.formula.eval (fun a => d.isUsed w args operators a.name) = .ok truth := by
  refine ⟨((exists_addInstances hread hclass).2 args hargs).2 p hp, fun operators => ?_⟩
  obtain ⟨truth, htruth⟩ :=
    (Formula.eval_isOk_iff (fun a : Symbol => d.isUsed w args operators a.name) p.formula).mpr
      (isPropositional_of_classAfter? hclass p hp)
  refine ⟨truth, ?_, htruth⟩
  rw [← htruth, Property.withSuffix, Formula.addSuffix, Formula.eval_map]
  refine Formula.eval_congr fun a ha => ?_
  have hused := isUsed_instanceName hread hclass hnodup hnew hargs (hatoms a ha) operators
  rwa [SetBlock.instanceName_eq_append] at hused

/-- The first truck visits its place and the second one does not. -/
theorem visits_eval : ∃ set before d instances,
    read depots .actionSets (visits ["truck1, loc1", "truck2, loc2"]) = .ok set ∧
      classAfter? depots (visits ["truck1, loc1", "truck2, loc2"]) 6 =
          some (before, d, instances) ∧
        (SetBlock.instances d.blocks d.params instances).map (fun b => b.name.name) =
            ["visit_truck1_loc1", "visit_truck2_loc2"] ∧
          (d.properties.map fun p => instances.map fun args =>
              (p.formula.eval fun a => d.isUsed depots args ["(move truck1 loc1)"]
                a.name).toOption) = [[some true, some false]] ∧
            ∀ args ∈ instances, ∀ p ∈ d.properties,
              p.withSuffix (ClassDraft.suffix args) ∈ set.properties ∧
                ∀ operators : List String, ∃ truth,
                  (p.withSuffix (ClassDraft.suffix args)).formula.eval
                      (fun a => set.isUsed operators a.name) = .ok truth ∧
                    p.formula.eval (fun a => d.isUsed depots args operators a.name) =
                      .ok truth := by
  obtain ⟨set, hread⟩ := exists_of_isOk
    (x := read depots .actionSets (visits ["truck1, loc1", "truck2, loc2"])) (by decide +kernel)
  have hfacts : (classAfter? depots (visits ["truck1, loc1", "truck2, loc2"]) 6).map
      (fun c => ((SetBlock.instances c.2.1.blocks c.2.1.params c.2.2).map (fun b => b.name.name),
        (c.2.1.properties.map fun p => c.2.2.map fun args =>
          (p.formula.eval fun a => c.2.1.isUsed depots args ["(move truck1 loc1)"]
            a.name).toOption),
        decide (c.1 = .empty ∧ ∀ p ∈ c.2.1.properties, ∀ a ∈ p.formula.atoms,
          ∃ b ∈ c.2.1.blocks, b.name.name = a.name))) =
        some (["visit_truck1_loc1", "visit_truck2_loc2"], [[some true, some false]], true) := by
    decide +kernel
  obtain ⟨⟨before, d, instances⟩, hclass, hfacts⟩ := Option.map_eq_some_iff.mp hfacts
  simp only [Prod.mk.injEq, decide_eq_true_eq] at hfacts
  obtain ⟨hnames, htruth, hbefore, hatoms⟩ := hfacts
  exact ⟨set, before, d, instances, hread, hclass, hnames, htruth, fun args hargs p hp =>
    eval_instance hread hclass (by rw [hnames]; decide) (fun b _ => by rw [hbefore]; rfl) hargs hp
      (hatoms p hp)⟩

end

end PropertyFile

end PlanConstraints

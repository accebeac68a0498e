import Mathlib.Data.List.TakeWhile
import PlanConstraints.Proofs.ActionSet.Instances
import PlanConstraints.Proofs.Formula.Atoms
import PlanConstraints.Proofs.Property.Reading

set_option autoImplicit false

/-!
# Classes of properties in a file

A class is found in an accepted file where the reader comes to its instances (`classAfter?`).
Every instance adds a copy of each set and each property of the body under names that end with its
arguments.  If the arguments have no underscores, the names tell the instances apart, and the copies
of the properties refer to the copies of the sets.  With underscores, two instances can get the same
names; then the sets of the second one are ignored.
-/

namespace PlanConstraints

namespace PropertyFile

/-! ## What is declared stays -/

/-- All sets and properties stay, in front of new ones. -/
structure Keeps (s s' : PropertySet) : Prop where
  sets : s.actionSets.sets <+: s'.actionSets.sets
  properties : s.properties <+: s'.properties

theorem Keeps.refl (s : PropertySet) : Keeps s s := ⟨List.prefix_refl _, List.prefix_refl _⟩

theorem Keeps.trans {s s' s'' : PropertySet} (h : Keeps s s') (h' : Keeps s' s'') : Keeps s s'' :=
  ⟨h.sets.trans h'.sets, h.properties.trans h'.properties⟩

section

variable {w : World} {dialect : Dialect} {r r' : PropertySet}

theorem keeps_addBlock {block : SetBlock} (h : addBlock w r block = .ok r') : Keeps r r' := by
  obtain ⟨s, -, rfl⟩ := addBlock_eq_ok_iff.mp h
  exact ⟨ActionSets.sets_prefix_add _ s, List.prefix_refl _⟩

theorem keeps_foldSteps_addBlock {blocks : List SetBlock}
    (h : foldSteps (addBlock w) r blocks = .ok r') : Keeps r r' :=
  foldSteps_invariant (Keeps r) h (.refl r) fun _ _ _ _ hkeeps hstep =>
    hkeeps.trans (keeps_addBlock hstep)

theorem keeps_addItem {item : Item} (h : addItem w dialect r item = .ok r') : Keeps r r' := by
  cases item with
  | set block =>
    unfold addItem at h
    cases hblock : addBlock w r block with
    | error e => simp [hblock] at h
    | ok r'' =>
      simp only [hblock, Except.ok.injEq] at h
      exact h ▸ keeps_addBlock hblock
  | property p =>
    cases dialect <;> cases h
    · exact ⟨List.prefix_refl _, List.prefix_append _ _⟩
    · exact ⟨List.prefix_refl _, List.prefix_refl _⟩

theorem keeps_finish {d : ClassDraft} (h : d.finish w r = .ok r') : Keeps r r' := by
  unfold ClassDraft.finish at h
  split at h
  · cases h
  · next r'' hr'' =>
    cases h
    have hkeeps := keeps_foldSteps_addBlock hr''
    exact ⟨hkeeps.sets, hkeeps.properties.trans (List.prefix_append _ _)⟩

theorem keeps_continueBlock {read : Block ⊕ Item} {s' : State}
    (h : continueBlock w dialect r read = .ok s') : Keeps r s'.result := by
  unfold continueBlock at h
  split at h
  · cases h
    exact .refl r
  · split at h
    · cases h
    · next hadd =>
      cases h
      exact keeps_addItem hadd

theorem keeps_of_step {line : Line} {s s' : State} (h : Step w dialect line s s') :
    Keeps s.result s'.result := by
  cases h with
  | openBlock _ hcontinue => exact keeps_continueBlock hcontinue
  | inBlock _ hcontinue => exact keeps_continueBlock hcontinue
  | goal r => exact ⟨List.prefix_refl _, List.prefix_refl _⟩
  | finish hfinish => exact keeps_finish hfinish
  | _ => exact .refl _

/-- Reading on keeps what was declared. -/
theorem keeps_foldSteps_readLine {lines : List Line} {s s' : State}
    (h : foldSteps (readLine w dialect) s lines = .ok s') : Keeps s.result s'.result :=
  foldSteps_invariant (fun s' => Keeps s.result s'.result) h (.refl _)
    fun _ _ _ _ hkeeps hstep => hkeeps.trans (keeps_of_step (step_of_readLine hstep))

/-- Of blocks that are added, the first one of a new name declares the set of that name. -/
theorem get?_foldSteps_addBlock {blocks : List SetBlock}
    (h : foldSteps (addBlock w) r blocks = .ok r') {name : String}
    (hnew : r.actionSets.get? name = none) {b : SetBlock}
    (hb : (blocks.find? fun b => b.name.name = name) = some b) :
    ∃ s, ActionSet.ofBlock w b = .ok s ∧ r'.actionSets.get? name = some s := by
  induction blocks generalizing r with
  | nil => cases hb
  | cons first blocks ih =>
    unfold foldSteps at h
    split at h
    · cases h
    · next r₁ hstep =>
      obtain ⟨s, hs, rfl⟩ := addBlock_eq_ok_iff.mp hstep
      have hname : s.name = first.name.name := by
        unfold ActionSet.ofBlock at hs
        split at hs <;> cases hs
        rfl
      have hadded := ActionSets.get?_add r.actionSets s name
      rw [hnew, Option.none_or, hname] at hadded
      rw [List.find?_cons] at hb
      by_cases hfirst : first.name.name = name
      · rw [if_pos hfirst] at hadded
        simp only [hfirst, decide_true, Option.some.injEq] at hb
        rw [← hb]
        exact ⟨s, hs, ActionSets.get?_of_prefix (keeps_foldSteps_addBlock h).sets hadded⟩
      · rw [if_neg hfirst] at hadded
        simp only [hfirst, decide_false] at hb
        exact ih h hadded hb

end

/-! ## Reading instances -/

/-- The line ends the instances of a class. -/
def closesInstances (line : Line) : Bool := line.trimmed = "\x7d"

/-- The arguments of the instances that stand on lines, instance by instance. -/
def instanceArguments (lines : List Line) : List (List Symbol) :=
  (lines.filter fun l => !isSkipped l).filterMap fun l =>
    (application? l.piece.trim).map Application.args

theorem instanceArguments_cons (line : Line) (lines : List Line) :
    instanceArguments (line :: lines) = instanceArguments [line] ++ instanceArguments lines := by
  unfold instanceArguments
  rw [← List.filterMap_append, ← List.filter_append]
  rfl

namespace ClassDraft

/-- The class with further instances. -/
def addInstances (d : ClassDraft) (argss : List (List Symbol)) : ClassDraft :=
  argss.foldl addInstance d

theorem addInstances_append (d : ClassDraft) (argss more : List (List Symbol)) :
    d.addInstances (argss ++ more) = (d.addInstances argss).addInstances more :=
  List.foldl_append

theorem addInstances_eq (d : ClassDraft) (argss : List (List Symbol)) :
    d.addInstances argss = { d with
      instanceBlocks := d.instanceBlocks ++ SetBlock.instances d.blocks d.params argss
      instanceProperties := d.instanceProperties ++
        argss.flatMap fun args => d.properties.map fun p => p.withSuffix (suffix args) } := by
  induction argss generalizing d with
  | nil => simp [addInstances, SetBlock.instances]
  | cons args argss ih =>
    change (d.addInstance args).addInstances argss = _
    rw [ih]
    simp [addInstance, SetBlock.instances]

end ClassDraft

section

variable {w : World} {input : Input} {before : PropertySet} {d : ClassDraft}

theorem isSkipped_eq_false_of_closesInstances {line : Line} (h : closesInstances line = true) :
    line.isBlank = false ∧ isSkipped line = false := by
  have htext : String.ofList line.piece.trim.chars = "\x7d" := of_decide_eq_true h
  have hchars : line.piece.trim.chars = ['\x7d'] := String.ofList_injective htext
  have hblank : line.isBlank = false := by
    cases hb : line.isBlank with
    | false => rfl
    | true =>
      have hb' : line.piece.isBlank = true := hb
      simp [Piece.trim, hb'] at hchars
  exact ⟨hblank, by simp [isSkipped, hblank, hchars]⟩

/-- A line among the instances of a class adds an instance, if it is not skipped. -/
theorem readLine_instances {line : Line} {s : State} (hopen : closesInstances line = false)
    (h : readLine w .actionSets ⟨before, .instances d⟩ line = .ok s) :
    s = ⟨before, .instances (d.addInstances (instanceArguments [line]))⟩ ∧
      ∀ args ∈ instanceArguments [line], args.length = d.params.length := by
  cases hskip : isSkipped line with
  | true =>
    have hargs : instanceArguments [line] = [] := by simp [instanceArguments, hskip]
    have hsame : s = ⟨before, .instances d⟩ := by
      unfold readLine at h
      split at h <;> simp_all
    rw [hargs, hsame]
    exact ⟨rfl, List.forall_mem_nil _⟩
  | false =>
    have hblank : line.isBlank = false := by
      simp only [isSkipped, Bool.or_eq_false_iff] at hskip
      exact hskip.1
    have hclose : line.trimmed ≠ "\x7d" := by simpa [closesInstances] using hopen
    simp only [readLine, hblank, Bool.false_eq_true, if_false, hskip, readContent,
      if_neg hclose] at h
    split at h
    · cases h
    · next d' hd' =>
      cases h
      obtain ⟨app, happ, hlen, rfl⟩ := ClassDraft.readInstance_eq_ok hd'
      have hargs : instanceArguments [line] = [app.args] := by
        simp [instanceArguments, hskip, happ]
      rw [hargs]
      exact ⟨rfl, List.forall_mem_singleton.mpr hlen⟩

/-- Lines among the instances of a class add an instance each, if they are not skipped. -/
theorem foldSteps_instances {lines : List Line} {s : State}
    (hopen : ∀ l ∈ lines, closesInstances l = false)
    (h : foldSteps (readLine w .actionSets) ⟨before, .instances d⟩ lines = .ok s) :
    s = ⟨before, .instances (d.addInstances (instanceArguments lines))⟩ ∧
      ∀ args ∈ instanceArguments lines, args.length = d.params.length := by
  induction lines generalizing d with
  | nil =>
    cases h
    exact ⟨rfl, List.forall_mem_nil _⟩
  | cons line lines ih =>
    obtain ⟨hline, hlines⟩ := List.forall_mem_cons.mp hopen
    unfold foldSteps at h
    split at h
    · cases h
    · next s₁ hstep =>
      obtain ⟨rfl, hfirst⟩ := readLine_instances hline hstep
      obtain ⟨hs, hrest⟩ := ih hlines h
      rw [ClassDraft.addInstances_eq] at hrest
      rw [instanceArguments_cons, ClassDraft.addInstances_append]
      exact ⟨hs, List.forall_mem_append.mpr ⟨hfirst, hrest⟩⟩

/-- The line behind the instances of a class ends the class. -/
theorem readLine_closing {line : Line} {s : State} (hclosing : closesInstances line = true)
    (h : readLine w .actionSets ⟨before, .instances d⟩ line = .ok s) :
    ∃ after, d.finish w before = .ok after ∧ s = ⟨after, .outside⟩ := by
  obtain ⟨hblank, hskip⟩ := isSkipped_eq_false_of_closesInstances hclosing
  simp only [readLine, hblank, Bool.false_eq_true, if_false, hskip, readContent,
    if_pos (of_decide_eq_true hclosing)] at h
  split at h
  · cases h
  · next after hafter =>
    cases h
    exact ⟨after, hafter, rfl⟩

/-! ## Classes of a file -/

/-- The class whose instances stand behind the first `n` lines, with what is declared in front of it
and the arguments of the instances. -/
def classAfter? (w : World) (input : Input) (n : Nat) :
    Option (PropertySet × ClassDraft × List (List Symbol)) :=
  match foldSteps (readLine w .actionSets) ⟨.empty, .outside⟩ (input.lines.take n) with
  | .ok ⟨before, .instances d⟩ =>
    if d.instanceBlocks = [] ∧ d.instanceProperties = [] then
      some (before, d, instanceArguments
        ((input.lines.drop n).takeWhile fun l => !closesInstances l))
    else none
  | _ => none

theorem classAfter?_eq_some {n : Nat} {instances : List (List Symbol)}
    (h : classAfter? w input n = some (before, d, instances)) :
    foldSteps (readLine w .actionSets) ⟨.empty, .outside⟩ (input.lines.take n) =
        .ok ⟨before, .instances d⟩ ∧
      (d.instanceBlocks = [] ∧ d.instanceProperties = []) ∧
        instances = instanceArguments
          ((input.lines.drop n).takeWhile fun l => !closesInstances l) := by
  unfold classAfter? at h
  split at h
  · next hfront =>
    split at h
    · next hfresh =>
      cases h
      exact ⟨hfront, hfresh, rfl⟩
    · cases h
  · cases h

/-- In an accepted file, the instances of a class are added where it ends. -/
theorem exists_finish {n : Nat} {set : PropertySet} {instances : List (List Symbol)}
    (hread : read w .actionSets input = .ok set)
    (hclass : classAfter? w input n = some (before, d, instances)) :
    (∀ args ∈ instances, args.length = d.params.length) ∧
      ∃ after, (d.addInstances instances).finish w before = .ok after ∧ Keeps after set := by
  obtain ⟨hfront, -, rfl⟩ := classAfter?_eq_some hclass
  unfold read at hread
  split at hread
  · cases hread
  · next s hs =>
    split at hread
    · cases hread
    · next hplace =>
      cases hread
      have hopen : ∀ l ∈ (input.lines.drop n).takeWhile fun l => !closesInstances l,
          closesInstances l = false := fun l hl => by
        simpa using List.mem_takeWhile_imp hl
      rw [← List.take_append_drop n input.lines, foldSteps_append, hfront] at hs
      simp only at hs
      rw [← List.takeWhile_append_dropWhile (p := fun l => !closesInstances l)
        (l := input.lines.drop n), foldSteps_append] at hs
      split at hs
      · cases hs
      · next s₁ hs₁ =>
        obtain ⟨rfl, hlen⟩ := foldSteps_instances hopen hs₁
        refine ⟨hlen, ?_⟩
        cases hback : (input.lines.drop n).dropWhile fun l => !closesInstances l with
        | nil =>
          -- The file would end among the instances.
          rw [hback] at hs
          cases hs
          cases hplace
        | cons closing back =>
          rw [hback] at hs
          have hclosing : closesInstances closing = true := by
            have hhead := List.head?_dropWhile_not (fun l => !closesInstances l)
              (input.lines.drop n)
            rw [hback] at hhead
            simpa using hhead
          unfold foldSteps at hs
          split at hs
          · cases hs
          · next s₂ hline =>
            obtain ⟨after, hafter, rfl⟩ := readLine_closing hclosing hline
            exact ⟨after, hafter, keeps_foldSteps_readLine hs⟩

/-- The atoms of an instance of a property name the instances of the sets. -/
theorem atoms_withSuffix (p : Property) (args : List Symbol) :
    (p.withSuffix (ClassDraft.suffix args)).formula.atoms.map Symbol.name =
      p.formula.atoms.map fun a => SetBlock.instanceName a.name args := by
  simp only [Property.withSuffix, Formula.addSuffix, Formula.atoms_map, List.map_map,
    ClassDraft.suffix]
  refine List.map_congr_left fun a _ => ?_
  exact (SetBlock.instanceName_eq_append a.name args).symm

/-- If no argument of a class has an underscore, then its instances have different names: each of
them has its own sets, and its properties speak about these.

`hplain` bears the load: arguments are joined by underscores, so that arguments with underscores can
give two instances one name, of which the set that comes second is dropped.  A set that was declared
before the class keeps its name, which is why the second part speaks of names that are new. -/
theorem class_instances {n : Nat} {set : PropertySet} {instances : List (List Symbol)}
    (hread : read w .actionSets input = .ok set)
    (hclass : classAfter? w input n = some (before, d, instances))
    (hplain : ∀ args ∈ instances, ArePlain args) :
    (∀ b ∈ d.blocks, ∀ b' ∈ d.blocks, ∀ args ∈ instances, ∀ args' ∈ instances,
      (b.name.name ≠ b'.name.name ∨ args.map Symbol.name ≠ args'.map Symbol.name) →
        (b.instantiate d.params args).name.name ≠ (b'.instantiate d.params args').name.name) ∧
      (∀ args ∈ instances, ∀ name b, (d.blocks.find? fun b => b.name.name = name) = some b →
        before.actionSets.contains (SetBlock.instanceName name args) = false →
          ∃ s, ActionSet.ofBlock w (b.instantiate d.params args) = .ok s ∧
            set.actionSets.get? (SetBlock.instanceName name args) = some s) ∧
      ∀ args ∈ instances, ∀ p ∈ d.properties,
        p.withSuffix (ClassDraft.suffix args) ∈ set.properties ∧
          (p.withSuffix (ClassDraft.suffix args)).formula.atoms.map Symbol.name =
            p.formula.atoms.map fun a => SetBlock.instanceName a.name args := by
  obtain ⟨-, ⟨hblocks, hproperties⟩, -⟩ := classAfter?_eq_some hclass
  obtain ⟨hlen, after, hfinish, hkeeps⟩ := exists_finish hread hclass
  rw [ClassDraft.addInstances_eq, hblocks, hproperties, List.nil_append, List.nil_append] at hfinish
  unfold ClassDraft.finish at hfinish
  split at hfinish
  · cases hfinish
  · next r hr =>
    cases hfinish
    refine ⟨fun b _ b' _ args hargs args' hargs' hdiffer hsame => ?_,
      fun args hargs name b hb hnew => ?_, fun args hargs p hp => ⟨?_, atoms_withSuffix p args⟩⟩
    · obtain ⟨hname, hnames⟩ := SetBlock.instanceName_inj
        ((hlen args hargs).trans (hlen args' hargs').symm) (hplain args hargs)
        (hplain args' hargs') hsame
      exact hdiffer.elim (absurd hname) (absurd hnames)
    · have hfound := SetBlock.find?_instances hlen hplain hargs hb
      obtain ⟨s, hs, hget⟩ := get?_foldSteps_addBlock hr (by simpa [ActionSets.contains] using hnew)
        hfound
      exact ⟨s, hs, ActionSets.get?_of_prefix hkeeps.sets hget⟩
    · obtain ⟨more, hmore⟩ := hkeeps.properties
      rw [← hmore]
      refine List.mem_append_left _ (List.mem_append_right _ ?_)
      exact List.mem_flatMap.mpr ⟨args, hargs, List.mem_map.mpr ⟨p, hp, rfl⟩⟩

end

/-! ## Visits -/

/-- A world without types, of the given objects. -/
def worldOf (objects : List String) : World := ⟨[], objects.map fun o => (o, topType)⟩

/-- A file with a class for visits, of the given instances. -/
def visits (instances : List String) : Input :=
  .ofText ("propertyclass visit(t, l) \x7b\nset visit 1\nmove t l\nproperty visited\nvisit\n"
    ++ "\x7d \x7b\n" ++ String.join (instances.map fun i => "visit(" ++ i ++ ")\n") ++ "\x7d\n")

/-- Trucks and places whose names have no underscores. -/
def depots : World := worldOf ["truck1", "loc1", "truck2", "loc2"]

/-- Two trucks visit a place each: both instances of the set are kept. -/
theorem visits_instances : ∃ set before d instances,
    read depots .actionSets (visits ["truck1, loc1", "truck2, loc2"]) = .ok set ∧
      classAfter? depots (visits ["truck1, loc1", "truck2, loc2"]) 6 =
          some (before, d, instances) ∧
        (∀ args ∈ instances, ArePlain args) ∧
          instances.map (fun args => args.map Symbol.name) =
              [["truck1", "loc1"], ["truck2", "loc2"]] ∧
            ∀ args ∈ instances, ∃ b ∈ d.blocks, ∃ s,
              ActionSet.ofBlock depots (b.instantiate d.params args) = .ok s ∧
                set.actionSets.get? (SetBlock.instanceName "visit" args) = some s := by
  obtain ⟨set, hread⟩ := exists_of_isOk
    (x := read depots .actionSets (visits ["truck1, loc1", "truck2, loc2"])) (by decide +kernel)
  have hfacts : (classAfter? depots (visits ["truck1, loc1", "truck2, loc2"]) 6).map
      (fun c => (c.2.2.map fun args => args.map Symbol.name,
        decide ((∀ args ∈ c.2.2, ArePlain args) ∧ c.1 = .empty),
        (c.2.1.blocks.find? fun b => b.name.name = "visit").isSome)) =
        some ([["truck1", "loc1"], ["truck2", "loc2"]], true, true) := by decide +kernel
  obtain ⟨⟨before, d, instances⟩, hclass, hfacts⟩ := Option.map_eq_some_iff.mp hfacts
  simp only [Prod.mk.injEq, decide_eq_true_eq] at hfacts
  obtain ⟨hnames, ⟨hplain, hnew⟩, hblock⟩ := hfacts
  obtain ⟨b, hb⟩ := Option.isSome_iff_exists.mp hblock
  refine ⟨set, before, d, instances, hread, hclass, hplain, hnames,
    fun args hargs => ⟨b, List.mem_of_find?_eq_some hb, ?_⟩⟩
  exact (class_instances hread hclass hplain).2.1 args hargs "visit" b hb (by rw [hnew]; rfl)

/-- Places whose names have underscores. -/
def yards : World := worldOf ["a_b", "c", "a", "b_c"]

/-- With underscores in the arguments, two instances of a set get one name.  The second one is
ignored, and both properties speak about the first one. -/
theorem visits_collide : ∃ set before d instances b,
    read yards .actionSets (visits ["a_b, c", "a, b_c"]) = .ok set ∧
      classAfter? yards (visits ["a_b, c", "a, b_c"]) 6 = some (before, d, instances) ∧
        b ∈ d.blocks ∧
          instances.map (fun args => args.map Symbol.name) = [["a_b", "c"], ["a", "b_c"]] ∧
            instances.map (fun args => (b.instantiate d.params args).name.name) =
                ["visit_a_b_c", "visit_a_b_c"] ∧
              set.actionSets.names = ["visit_a_b_c"] ∧
                set.properties.map (fun p => p.formula.atoms.map Symbol.name) =
                    [["visit_a_b_c"], ["visit_a_b_c"]] ∧
                  set.actionSets.sets.map (fun s => s.contains "move" ["a_b", "c"]) = [true] ∧
                    set.actionSets.sets.map (fun s => s.contains "move" ["a", "b_c"]) =
                      [false] := by
  have hclass : (classAfter? yards (visits ["a_b, c", "a, b_c"]) 6).map
      (fun c => (c.2.2.map fun args => args.map Symbol.name,
        c.2.1.blocks.map fun b => c.2.2.map fun args =>
          (b.instantiate c.2.1.params args).name.name)) =
        some ([["a_b", "c"], ["a", "b_c"]], [["visit_a_b_c", "visit_a_b_c"]]) := by decide +kernel
  have hread : (read yards .actionSets (visits ["a_b, c", "a, b_c"])).toOption.map
      (fun set => (set.actionSets.names,
        set.properties.map fun p => p.formula.atoms.map Symbol.name,
        set.actionSets.sets.map fun s => s.contains "move" ["a_b", "c"],
        set.actionSets.sets.map fun s => s.contains "move" ["a", "b_c"])) =
        some (["visit_a_b_c"], [["visit_a_b_c"], ["visit_a_b_c"]], [true], [false]) := by
    decide +kernel
  obtain ⟨⟨before, d, instances⟩, hclass, hinstances⟩ := Option.map_eq_some_iff.mp hclass
  obtain ⟨set, hread, hset⟩ := Option.map_eq_some_iff.mp hread
  simp only [Prod.mk.injEq] at hinstances hset
  obtain ⟨b, rest, hb, hnames, -⟩ := List.map_eq_cons_iff.mp hinstances.2
  exact ⟨set, before, d, instances, b, eq_ok_of_toOption hread, hclass,
    by rw [hb]; exact List.mem_cons_self, hinstances.1, hnames, hset.1, hset.2.1, hset.2.2.1,
    hset.2.2.2⟩

end PropertyFile

end PlanConstraints

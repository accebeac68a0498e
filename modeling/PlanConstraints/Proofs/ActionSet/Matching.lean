import Mathlib.Data.List.Forall2
import PlanConstraints.ActionSet.Basic

set_option autoImplicit false

/-!
# What belongs to an action set

The templates of a set are kept in tries, one for every action.  Inserting a template in a trie adds
what the template describes (`Trie.accepts_insert`), so that a ground action belongs to a set
exactly if some template has its name and allows its objects one by one (`contains_iff`), and an
operator exactly if the words of some line of the block describe it (`containsOperator_ofBlock`).
-/

namespace PlanConstraints

/-! ## Tries -/

/-- The edges accept the objects one by one. -/
def edgesAccept (edges : List Edge) (objects : List String) : Bool :=
  (edges.zip objects).all fun (edge, object) => edge.accepts object

theorem edgesAccept_cons (edge : Edge) (edges : List Edge) (object : String)
    (objects : List String) :
    edgesAccept (edge :: edges) (object :: objects) =
      (edge.accepts object && edgesAccept edges objects) := rfl

namespace Trie

/-- The edges are those of parameters in the world. -/
def IsOver (w : World) : Trie → Prop
  | nil => True
  | branch edge below beside =>
    edge = .ofParam w edge.param ∧ below.IsOver w ∧ beside.IsOver w

theorem isOver_ofEdges {w : World} {edges : List Edge}
    (h : ∀ edge ∈ edges, edge = .ofParam w edge.param) : (ofEdges edges).IsOver w := by
  induction edges with
  | nil => trivial
  | cons edge edges ih =>
    obtain ⟨hedge, hedges⟩ := List.forall_mem_cons.mp h
    exact ⟨hedge, ih hedges, trivial⟩

theorem IsOver.insert {w : World} {trie : Trie} (h : trie.IsOver w) {edges : List Edge}
    (hedges : ∀ edge ∈ edges, edge = .ofParam w edge.param) : (trie.insert edges).IsOver w := by
  induction trie generalizing edges with
  | nil => exact isOver_ofEdges hedges
  | branch edge below beside ihbelow ihbeside =>
    obtain ⟨hedge, hbelow, hbeside⟩ := h
    cases edges with
    | nil => exact ⟨hedge, hbelow, hbeside⟩
    | cons first rest =>
      rw [Trie.insert]
      split
      · exact ⟨hedge, ihbelow hbelow (List.forall_mem_cons.mp hedges).2, hbeside⟩
      · exact ⟨hedge, hbelow, ihbeside hbeside hedges⟩

theorem accepts_ofEdges {edges : List Edge} {objects : List String}
    (hlen : edges.length = objects.length) :
    (ofEdges edges).accepts objects = edgesAccept edges objects := by
  induction edges generalizing objects with
  | nil =>
    have hnil : objects = [] := List.length_eq_zero_iff.mp hlen.symm
    rw [hnil]
    rfl
  | cons edge edges ih =>
    cases objects with
    | nil => cases hlen
    | cons object objects =>
      rw [ofEdges, accepts, ih (Nat.succ.inj hlen), edgesAccept_cons]
      simp [accepts]

/-- Inserting a list of edges adds what they accept. -/
theorem accepts_insert {w : World} {trie : Trie} (h : trie.IsOver w) {edges : List Edge}
    (hedges : ∀ edge ∈ edges, edge = .ofParam w edge.param) {objects : List String}
    (hlen : edges.length = objects.length) :
    (trie.insert edges).accepts objects = (trie.accepts objects || edgesAccept edges objects) := by
  induction trie generalizing edges objects with
  | nil =>
    rw [Trie.insert, accepts_ofEdges hlen, accepts]
    cases objects with
    | nil => cases edges <;> simp [edgesAccept]
    | cons object objects => simp
  | branch edge below beside ihbelow ihbeside =>
    obtain ⟨hedge, hbelow, hbeside⟩ := h
    cases edges with
    | nil =>
      have hnil : objects = [] := List.length_eq_zero_iff.mp hlen.symm
      rw [hnil]
      rfl
    | cons first rest =>
      cases objects with
      | nil => cases hlen
      | cons object objects =>
        obtain ⟨hfirst, hrest⟩ := List.forall_mem_cons.mp hedges
        rw [Trie.insert, edgesAccept_cons]
        split
        · next hsame =>
          -- The first edge is there already: it accepts what the first of the list does.
          have hequal : edge = first := by rw [hedge, hfirst, hsame]
          rw [accepts, accepts, ihbelow hbelow hrest (Nat.succ.inj hlen), hequal]
          cases first.accepts object <;> cases below.accepts objects <;>
            cases edgesAccept rest objects <;> cases beside.accepts (object :: objects) <;> rfl
        · rw [accepts, accepts, ihbeside hbeside hedges hlen, edgesAccept_cons, Bool.or_assoc]

end Trie

/-! ## Matchers -/

namespace Template

variable {w : World}

theorem ofParam_of_mem_edges {params : List Param} :
    ∀ edge ∈ params.map (Edge.ofParam w), edge = .ofParam w edge.param := by
  refine List.forall_mem_map.mpr fun param _ => ?_
  cases param <;> rfl

theorem edgesAccept_map_ofParam (params : List Param) (objects : List String) :
    edgesAccept (params.map (Edge.ofParam w)) objects =
      (params.zip objects).all fun (param, object) => param.accepts w object := by
  induction params generalizing objects with
  | nil => rfl
  | cons param params ih =>
    cases objects with
    | nil => rfl
    | cons object objects =>
      rw [List.map_cons, edgesAccept_cons, ih, Edge.accepts_ofParam]
      rfl

end Template

namespace Matcher

variable {w : World} {t : Template}

/-- The edges of a template accept what it describes, of its number of parameters. -/
theorem edgesAccept_eq_describes (objects : List String) :
    (objects.length == t.arity && edgesAccept (t.params.map (Edge.ofParam w)) objects) =
      t.describes w t.name objects := by
  rw [Template.edgesAccept_map_ofParam, Template.describes, beq_self_eq_true, Bool.true_and,
    Template.arity, Bool.beq_comm]

theorem accepts_ofEdges (objects : List String) :
    (⟨t.name, t.arity, .ofEdges (t.params.map (Edge.ofParam w))⟩ : Matcher).accepts objects =
      t.describes w t.name objects := by
  rw [← edgesAccept_eq_describes, accepts]
  by_cases hlen : objects.length = t.arity
  · rw [Trie.accepts_ofEdges (by rw [List.length_map, hlen, Template.arity])]
  · rw [beq_eq_false_iff_ne.mpr hlen, Bool.false_and, Bool.false_and]

theorem accepts_insert {m : Matcher} (h : m.trie.IsOver w) (harity : m.arity = t.arity)
    (objects : List String) :
    ({ m with trie := m.trie.insert (t.params.map (Edge.ofParam w)) } : Matcher).accepts objects =
      (m.accepts objects || t.describes w t.name objects) := by
  rw [← edgesAccept_eq_describes, accepts, accepts, harity]
  by_cases hlen : objects.length = t.arity
  · rw [Trie.accepts_insert h Template.ofParam_of_mem_edges
      (by rw [List.length_map, hlen, Template.arity]), Bool.and_or_distrib_left]
  · rw [beq_eq_false_iff_ne.mpr hlen, Bool.false_and, Bool.false_and, Bool.false_and,
      Bool.or_false]

end Matcher

namespace ActionSet

variable {w : World}

/-- The matcher of the action accepts the objects. -/
def matchersAccept (matchers : List Matcher) (action : String) (objects : List String) : Bool :=
  match matchers.find? fun m => m.action = action with
  | some m => m.accepts objects
  | none => false

theorem matchersAccept_cons (m : Matcher) (matchers : List Matcher) (action : String)
    (objects : List String) :
    matchersAccept (m :: matchers) action objects =
      if m.action = action then m.accepts objects else matchersAccept matchers action objects := by
  unfold matchersAccept
  rw [List.find?_cons]
  by_cases h : m.action = action <;> simp [h]

@[simp] theorem matchersAccept_nil (action : String) (objects : List String) :
    matchersAccept [] action objects = false := rfl

theorem describes_eq_false {t : Template} {action : String} (h : t.name ≠ action)
    (objects : List String) : t.describes w action objects = false := by
  simp [Template.describes, h]

/-- A template is added to the matchers. -/
theorem matchersAccept_addTemplate {set : String} {action : Symbol} {t : Template}
    {matchers matchers' : List Matcher} (hover : ∀ m ∈ matchers, m.trie.IsOver w)
    (h : addTemplate w set action t matchers = .ok matchers') :
    (∀ m ∈ matchers', m.trie.IsOver w) ∧ ∀ name objects,
      matchersAccept matchers' name objects =
        (matchersAccept matchers name objects || t.describes w name objects) := by
  have hedges : ∀ edge ∈ t.params.map (Edge.ofParam w), edge = .ofParam w edge.param :=
    Template.ofParam_of_mem_edges
  induction matchers generalizing matchers' with
  | nil =>
    cases h
    refine ⟨List.forall_mem_singleton.mpr (Trie.isOver_ofEdges hedges), fun name objects => ?_⟩
    rw [matchersAccept_cons, matchersAccept_nil, Bool.false_or]
    split
    · next hname => rw [← hname, Matcher.accepts_ofEdges]
    · next hname => rw [describes_eq_false hname]
  | cons m rest ih =>
    obtain ⟨hm, hrest⟩ := List.forall_mem_cons.mp hover
    unfold addTemplate at h
    split at h
    · next hname =>
      split at h
      · next harity =>
        -- The action has a matcher, and the template goes into its trie.
        cases h
        refine ⟨List.forall_mem_cons.mpr ⟨hm.insert hedges, hrest⟩, fun name objects => ?_⟩
        rw [matchersAccept_cons, matchersAccept_cons]
        split
        · next hfound => rw [Matcher.accepts_insert hm harity, ← hfound, hname]
        · next hother => rw [describes_eq_false (hname ▸ hother), Bool.or_false]
      · cases h
    · next hname =>
      split at h
      · cases h
      · next rest' hadd =>
        cases h
        obtain ⟨hover', haccept⟩ := ih hrest hadd
        refine ⟨List.forall_mem_cons.mpr ⟨hm, hover'⟩, fun name objects => ?_⟩
        rw [matchersAccept_cons, matchersAccept_cons, haccept]
        split
        · next hfound => rw [describes_eq_false (hfound ▸ Ne.symm hname), Bool.or_false]
        · rfl

end ActionSet

/-! ## Templates -/

/-- What stands for an object at the place of a parameter: an object for itself, `*` for any, and a
type for those that are declared with it or below it. -/
inductive Param.Allows (w : World) : Param → String → Prop where
  | object (name : String) : Allows w (.object name) name
  | any (object : String) : Allows w .any object
  | type {name object : String} (h : object ∈ w.objectsOf name) : Allows w (.type name) object

theorem Param.accepts_iff {w : World} {param : Param} {object : String} :
    param.accepts w object = true ↔ param.Allows w object := by
  cases param with
  | object name =>
    rw [accepts, beq_iff_eq]
    exact ⟨fun h => h ▸ .object name, fun h => by cases h; rfl⟩
  | any => exact ⟨fun _ => .any object, fun _ => rfl⟩
  | type name =>
    rw [accepts, List.contains_iff_mem]
    exact ⟨.type, fun | .type h => h⟩

namespace Template

variable {w : World}

/-- A template describes the ground actions of its name whose objects its parameters allow. -/
theorem describes_iff {t : Template} {name : String} {objects : List String} :
    t.describes w name objects = true ↔
      t.name = name ∧ List.Forall₂ (Param.Allows w) t.params objects := by
  rw [describes, Bool.and_assoc, Bool.and_eq_true, beq_iff_eq, Bool.and_eq_true, beq_iff_eq,
    List.all_eq_true, List.forall₂_iff_zip]
  simp only [Prod.forall, Param.accepts_iff]

/-- The template of a line: the action in lower case, and what its words are read as. -/
inductive IsReadFrom (w : World) : Template → List Symbol → Prop where
  | line {action : Symbol} {words : List Symbol} {params : List Param}
    (h : traverse (readParam w) words = .ok params) :
    IsReadFrom w ⟨Text.lowerSymbol action.name, params⟩ (action :: words)

end Template

/-! ## Lines -/

namespace Template

/-- The word of a template allows the object: it is `*`, a type of the object, or the object. -/
def wordAllows (w : World) (word object : String) : Bool :=
  let name := Text.lowerSymbol word
  name == anyObject ||
    if w.isType name then (w.objectsOf name).contains object else name == object

/-- The words of a template describe the ground action. -/
def wordsDescribe (w : World) (words : List String) (name : String) (objects : List String) :
    Bool :=
  match words with
  | [] => false
  | action :: params =>
    Text.lowerSymbol action == name && params.length == objects.length
      && (params.zip objects).all fun (word, object) => wordAllows w word object

/-- The words of a template describe the ground action that the name of an operator spells out. -/
def matchesOperator (w : World) (words : List String) (operator : String) : Bool :=
  match ActionSet.operatorWords operator with
  | [] => false
  | name :: objects =>
    wordsDescribe w words (Text.lowerCase name) (objects.map Text.lowerSymbol)

variable {w : World}

theorem accepts_of_readParam {word : Symbol} {param : Param} (h : readParam w word = .ok param)
    (object : String) : param.accepts w object = wordAllows w word.name object := by
  unfold readParam at h
  unfold wordAllows
  simp only at h ⊢
  split at h
  · next hany =>
    cases h
    simp [Param.accepts, hany]
  · next hany =>
    split at h
    · next htype =>
      cases h
      simp [Param.accepts, hany, htype]
    · next htype =>
      split at h
      · cases h
        simp [Param.accepts, hany, htype]
      · cases h

theorem all_accepts_of_traverse {words : List Symbol} {params : List Param}
    (h : traverse (readParam w) words = .ok params) (objects : List String) :
    ((params.zip objects).all fun (param, object) => param.accepts w object) =
      ((words.map Symbol.name).zip objects).all fun (word, object) => wordAllows w word object := by
  induction words generalizing params objects with
  | nil =>
    cases h
    rfl
  | cons word words ih =>
    obtain ⟨param, params, hparam, hparams, rfl⟩ := traverse_cons_eq_ok h
    cases objects with
    | nil => rfl
    | cons object objects =>
      simp only [List.map_cons, List.zip_cons_cons, List.all_cons, ih hparams,
        accepts_of_readParam hparam]

/-- The template of a line describes what the words of the line describe. -/
theorem IsReadFrom.describes_eq {t : Template} {line : List Symbol} (h : t.IsReadFrom w line)
    (name : String) (objects : List String) :
    t.describes w name objects = wordsDescribe w (line.map Symbol.name) name objects := by
  obtain ⟨hparams⟩ := h
  simp only [describes, wordsDescribe, List.map_cons, all_accepts_of_traverse hparams,
    length_traverse hparams, List.length_map]

theorem any_describes_eq {templates : List Template} {lines : List (List Symbol)}
    (h : List.Forall₂ (IsReadFrom w) templates lines) (name : String) (objects : List String) :
    (templates.any fun t => t.describes w name objects) =
      lines.any fun line => wordsDescribe w (line.map Symbol.name) name objects := by
  induction h with
  | nil => rfl
  | cons ht _ ih => rw [List.any_cons, List.any_cons, ih, ht.describes_eq]

end Template

namespace ActionSet

variable {w : World}

/-- The lines are read as further templates, and the matchers accept what those describe. -/
theorem exists_of_readLines {set : Symbol} {templates templates' : List Template}
    {matchers matchers' : List Matcher} {lines : List (List Symbol)}
    (hover : ∀ m ∈ matchers, m.trie.IsOver w)
    (h : readLines w set templates matchers lines = .ok (templates', matchers')) :
    ∃ added, templates' = templates ++ added ∧
      List.Forall₂ (Template.IsReadFrom w) added lines ∧
        ∀ name objects, matchersAccept matchers' name objects =
          (matchersAccept matchers name objects ||
            added.any fun t => t.describes w name objects) := by
  induction lines generalizing templates matchers with
  | nil =>
    cases h
    exact ⟨[], (List.append_nil _).symm, .nil, fun _ _ => (Bool.or_false _).symm⟩
  | cons line lines ih =>
    cases line with
    | nil => cases h
    | cons action words =>
      unfold readLines at h
      split at h
      · cases h
      · next params hparams =>
        simp only at h
        split at h
        · cases h
        · next matchers₁ hadd =>
          obtain ⟨hover₁, haccept₁⟩ := matchersAccept_addTemplate hover hadd
          obtain ⟨added, rfl, hadded, haccept⟩ := ih hover₁ h
          refine ⟨_ :: added, (List.append_cons _ _ _).symm, .cons ⟨hparams⟩ hadded,
            fun name objects => ?_⟩
          rw [haccept, haccept₁, Bool.or_assoc, List.any_cons]

variable {b : SetBlock} {s : ActionSet}

/-- The set that a block declares has the templates of its lines, and a ground action belongs to it
if one of them describes the action. -/
theorem contains_ofBlock (h : ofBlock w b = .ok s) :
    List.Forall₂ (Template.IsReadFrom w) s.templates b.lines ∧ ∀ name objects,
      s.contains name objects = s.templates.any fun t =>
        t.describes w (Text.lowerCase name) (objects.map Text.lowerSymbol) := by
  unfold ofBlock at h
  split at h
  · cases h
  · next templates matchers hread =>
    cases h
    obtain ⟨added, rfl, hadded, haccept⟩ := exists_of_readLines (List.forall_mem_nil _) hread
    exact ⟨hadded, fun name objects => haccept (Text.lowerCase name) _⟩

/-- The tries agree with the templates: a ground action belongs to a set exactly if some template of
the set has the name of the action and as many parameters as there are objects, each of which allows
the object at its place, whatever the letter case.

No fact about the trie is assumed, and templates are those that the lines of the block are read as;
a type allows what is declared with it or below it. -/
theorem contains_iff (h : ofBlock w b = .ok s) :
    List.Forall₂ (Template.IsReadFrom w) s.templates b.lines ∧
      ∀ (name : String) (objects : List String), s.contains name objects = true ↔
        ∃ t ∈ s.templates, t.name = Text.lowerCase name ∧
          List.Forall₂ (Param.Allows w) t.params (objects.map Text.lowerSymbol) := by
  obtain ⟨htemplates, hcontains⟩ := contains_ofBlock h
  refine ⟨htemplates, fun name objects => ?_⟩
  simp only [hcontains, List.any_eq_true, Template.describes_iff]

/-- An operator belongs to the set that a block declares exactly if the words of some line describe
it. -/
theorem containsOperator_ofBlock (h : ofBlock w b = .ok s) (operator : String) :
    s.containsOperator operator =
      b.lines.any fun line => Template.matchesOperator w (line.map Symbol.name) operator := by
  obtain ⟨htemplates, hcontains⟩ := contains_ofBlock h
  unfold containsOperator Template.matchesOperator
  cases operatorWords operator with
  | nil => exact (List.any_eq_false.mpr fun line _ => Bool.false_ne_true).symm
  | cons name objects =>
    simp only [hcontains]
    exact Template.any_describes_eq htemplates _ _

end ActionSet

/-! ## A town -/

/-- Trucks and places of a town. -/
def town : World where
  parents := [("vehicle", "object"), ("truck", "vehicle"), ("location", "object")]
  objects := [("truck1", "truck"), ("truck2", "truck"), ("loc1", "location"),
    ("loc2", "location")]

/-- Moves of the first truck to the first place, of a truck to a place and of anything to the second
truck. -/
def townMoves : SetBlock :=
  ⟨.ofName "moves", ["move truck1 loc1", "Move vehicle location", "move * truck2"].map fun line =>
    (Text.wordsOf line).map Symbol.ofName⟩

/-- A path of the trie that ends nowhere is left for the next one. -/
theorem town_contains_iff : ∃ s, ActionSet.ofBlock town townMoves = .ok s ∧
    ([["truck1", "loc2"], ["loc1", "Truck2"], ["loc1", "loc2"], ["truck1"]].map
      (s.contains "MOVE")) = [true, true, false, false] ∧
    List.Forall₂ (Template.IsReadFrom town) s.templates townMoves.lines ∧
      ∀ (name : String) (objects : List String), s.contains name objects = true ↔
        ∃ t ∈ s.templates, t.name = Text.lowerCase name ∧
          List.Forall₂ (Param.Allows town) t.params (objects.map Text.lowerSymbol) := by
  have hfacts : (ActionSet.ofBlock town townMoves).toOption.map (fun s =>
      [["truck1", "loc2"], ["loc1", "Truck2"], ["loc1", "loc2"], ["truck1"]].map
        (s.contains "MOVE")) = some [true, true, false, false] := by decide +kernel
  obtain ⟨s, hs, hcontains⟩ := Option.map_eq_some_iff.mp hfacts
  have hread := eq_ok_of_toOption hs
  exact ⟨s, hread, hcontains, ActionSet.contains_iff hread⟩

end PlanConstraints

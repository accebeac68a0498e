import PlanConstraints.ActionSet.Trie
import PlanConstraints.Proofs.World.Hierarchy

set_option autoImplicit false

/-!
# How the queries fit together

What belongs to a type is listed among its objects, except that anything belongs to the root, also
what is no object.  What has objects is a type, or it was only named as the parent of one.  So a
parameter of a template that is written like a type with objects allows exactly these
(`queries_after`), unless the type is written like the word for any object.
-/

namespace PlanConstraints

namespace World

theorem mem_objectsOf {w : World} {object type : String} :
    object ∈ w.objectsOf type ↔
      w.isObject object = true ∧ w.isInstance object type = true := by
  rw [objectsOf, List.mem_filter, isObject, Option.isSome_iff_ne_none, ne_eq, typeOf?,
    lookup_eq_none_iff, not_not]

theorem isInstance_iff_mem_objectsOf {w : World} {object type : String} :
    w.isInstance object type = true ↔
      object ∈ w.objectsOf type ∨ type = topType ∧ w.isObject object = false := by
  rw [mem_objectsOf]
  cases hobject : w.isObject object with
  | true => simp
  | false =>
    have htypeOf : w.typeOf? object = none := by simpa [isObject] using hobject
    simp [isInstance_iff, htypeOf]

section

variable {ds : List Declaration}

theorem isType_after_iff {type : String} :
    (after ds).isType type = true ↔ type = topType ∨ (declaredParent? ds type).isSome = true := by
  rw [isType, Bool.or_eq_true, beq_iff_eq, parentOf?_after]

/-- The type that an object is declared with is a type, also if the declaration is a conflict. -/
theorem isType_of_mem_objectEntries {entry : String × String} (h : entry ∈ objectEntries ds) :
    (after ds).isType entry.2 = true := by
  rw [isType_after_iff, declaredParent?]
  by_cases htop : entry.2 = topType
  · exact .inl htop
  · rw [if_neg htop, if_pos (List.mem_map_of_mem h)]
    exact .inr (by simp)

theorem mem_of_declaredParent? {child parent : String}
    (h : declaredParent? ds child = some parent) :
    parent = topType ∨ parent ∈ (typeEntries ds).map Prod.snd := by
  unfold declaredParent? at h
  split at h
  · cases h
  · rcases Option.or_eq_some_iff.mp h with hlookup | ⟨-, hobject⟩
    · have hmem : (child, parent) ∈ typeEntries ds :=
        List.mem_reverse.mp (mem_of_lookup_eq_some hlookup)
      exact .inr (List.mem_map_of_mem hmem)
    · split at hobject
      · cases hobject
        exact .inl rfl
      · cases hobject

/-- What has objects is a type, if it was not only named as the parent of another. -/
theorem isType_of_objectsOf {type : String} (h : (after ds).objectsOf type ≠ []) :
    (after ds).isType type = true ∨ type ∈ (typeEntries ds).map Prod.snd := by
  obtain ⟨object, hobject⟩ := List.exists_mem_of_ne_nil _ h
  rcases isInstance_iff.mp (List.mem_filter.mp hobject).2 with rfl | ⟨declared, hdeclared, hsub⟩
  · exact .inl (isType_after_iff.mpr (.inl rfl))
  · rw [typeOf?_after] at hdeclared
    -- Either it is the type of the object itself, or the last step leads to it from a child.
    rcases (isSubtype_after_iff.mp hsub).cases_tail with rfl | ⟨child, -, hparent⟩
    · exact .inl (isType_of_mem_objectEntries (mem_of_lookup_eq_some hdeclared))
    · rcases mem_of_declaredParent? hparent with rfl | hmem
      · exact .inl (isType_after_iff.mpr (.inl rfl))
      · exact .inr hmem

/-- What belongs to a type is listed among its objects, unless it is no object and the type is the
root.  What has objects is a type, if it was not only named as a parent.  A parameter that is
written like a type, whatever the letter case, stands for it and allows its objects and nothing
else, unless it is the word for any object.

There is no hypothesis on the declarations.  What is not an object counts as one of the root, and a
type that was only named as a parent is none to a parameter. -/
theorem queries_after (ds : List Declaration) :
    (∀ object type, (after ds).isInstance object type = true ↔
      object ∈ (after ds).objectsOf type ∨ type = topType ∧ (after ds).isObject object = false) ∧
      (∀ type, (after ds).objectsOf type ≠ [] →
        (after ds).isType type = true ∨ type ∈ (typeEntries ds).map Prod.snd) ∧
      ∀ type (word : Symbol), (after ds).isType type = true → Text.lowerSymbol word.name = type →
        type ≠ anyObject →
        Template.readParam (after ds) word = .ok (.type type) ∧
          ∀ object, (Edge.ofParam (after ds) (.type type)).accepts object = true ↔
            object ∈ (after ds).objectsOf type := by
  refine ⟨fun object type => isInstance_iff_mem_objectsOf, fun type => isType_of_objectsOf,
    fun type word htype hword hany => ⟨?_, fun object => ?_⟩⟩
  · rw [Template.readParam, hword]
    simp only [hany, htype, if_false, if_true]
  · rw [Edge.accepts_ofParam, Param.accepts, List.contains_iff_mem]

/-- Trucks, with a declaration of their parent. -/
def trucks : List Declaration :=
  [.type "truck" (some "Vehicle"), .object (.ofName "T1") "truck", .type "vehicle" none]

theorem queries_after_trucks :
    ((after trucks).isInstance "t1" "vehicle" = true ↔
        "t1" ∈ (after trucks).objectsOf "vehicle" ∨
          "vehicle" = topType ∧ (after trucks).isObject "t1" = false) ∧
      (after trucks).objectsOf "vehicle" = ["t1"] ∧
      ((after trucks).isType "vehicle" = true ∨ "vehicle" ∈ (typeEntries trucks).map Prod.snd) ∧
      Template.readParam (after trucks) (.ofName "VEHICLE") = .ok (.type "vehicle") ∧
      ∀ object, (Edge.ofParam (after trucks) (.type "vehicle")).accepts object = true ↔
        object ∈ (after trucks).objectsOf "vehicle" := by
  obtain ⟨hinstance, hlisted, hparam⟩ := queries_after trucks
  have hobjects : (after trucks).objectsOf "vehicle" = ["t1"] := by decide +kernel
  have htype : (after trucks).isType "vehicle" = true := by decide +kernel
  obtain ⟨hread, haccepts⟩ := hparam "vehicle" (.ofName "VEHICLE") htype (by decide +kernel)
    (by decide)
  exact ⟨hinstance "t1" "vehicle", hobjects,
    hlisted "vehicle" (hobjects ▸ List.cons_ne_nil _ _), hread, haccepts⟩

/-- A type that is written like the word for any object. -/
def starred : List Declaration :=
  [.object (.ofName "o1") "*", .object (.ofName "o2") "thing"]

/-- What is no object belongs to the root, without being listed; a type that was only named as a
parent has objects, but it is no type; and the word for any object allows all objects, where it is
also the name of a type. -/
theorem queries_disagree :
    ((after trucks).isInstance "ghost" "object" = true ∧
        "ghost" ∉ (after trucks).objectsOf "object") ∧
      ((after (trucks.take 2)).objectsOf "vehicle" = ["t1"] ∧
        (after (trucks.take 2)).isType "vehicle" = false ∧
        (Template.readParam (after (trucks.take 2)) (.ofName "vehicle")).toOption = none) ∧
      ((after starred).objectsOf "*" = ["o1"] ∧ (after starred).isType "*" = true ∧
        (Template.readParam (after starred) (.ofName "*")).toOption = some .any ∧
        (Edge.ofParam (after starred) .any).accepts "o2" = true) := by
  refine ⟨⟨?_, ?_⟩, ⟨?_, ?_, ?_⟩, ?_⟩ <;> decide +kernel

end

end World

end PlanConstraints

import PlanConstraints.Proofs.World.Hierarchy

set_option autoImplicit false

/-!
# What a refused declaration leaves behind

An object that is declared with two types keeps the first one, and the second declaration is
refused.  It has made its type known by then, as a child of the root, and that stays
(`queries_after_conflict`): the type is a type from then on, and the root is an ancestor of it and
of the types that lead to it.  Nothing is changed about objects, and nothing at all if the type was
known before.
-/

namespace PlanConstraints

namespace World

section

variable {w : World} {name : Symbol} {type : String}

/-- A declaration is refused only if there is an object of the name. -/
theorem objects_of_conflict (h : (w.addObject name type).2.isSome = true) :
    (w.addObject name type).1.objects = w.objects := by
  rw [objects_addObject, if_neg]
  intro hnew
  rw [addObject_eq, hnew] at h
  cases h

end

/-- The root has no parent. -/
theorem parentOf?_topType (ds : List Declaration) : (after ds).parentOf? topType = none := by
  rw [parentOf?_after, declaredParent?, if_pos rfl]

section

variable {ds : List Declaration}

/-- A declaration of an object adds one step to the hierarchy, from a type that is not known to the
root. -/
theorem parentOf?_addObject_eq_some {name : Symbol} {type child parent : String} :
    ((after ds).addObject name type).1.parentOf? child = some parent ↔
      (after ds).parentOf? child = some parent ∨
        (after ds).isType child = false ∧ child = Text.lowerSymbol type ∧ parent = topType := by
  rw [parentOf?_addObject]
  by_cases htop : child = topType
  · simp [htop, parentOf?_topType, isType]
  · cases hparent : (after ds).parentOf? child with
    | some parent' => simp [isType, hparent]
    | none =>
      by_cases hchild : child = Text.lowerSymbol type
      · have hunknown : (after ds).isType child = false := by simp [isType, htop, hparent]
        rw [if_pos ⟨hchild, htop⟩, Option.none_or, Option.some.injEq, eq_comm]
        exact ⟨fun h => .inr ⟨hunknown, hchild, h⟩, fun h => h.elim nofun fun h => h.2.2⟩
      · simp [hchild]

/-- The new step makes the root an ancestor of the type and of those that lead to it. -/
theorem isSubtype_addObject {name : Symbol} {type sub super : String} :
    ((after ds).addObject name type).1.isSubtype sub super = true ↔
      (after ds).isSubtype sub super = true ∨
        (after ds).isType (Text.lowerSymbol type) = false ∧ super = topType ∧
          (after ds).isSubtype sub (Text.lowerSymbol type) = true := by
  simp only [isSubtype_iff, parentOf?_addObject_eq_some]
  constructor
  · intro h
    induction h with
    | refl => exact .inl .refl
    | tail hway hstep ih =>
      rcases ih with hold | ⟨-, rfl, -⟩
      · rcases hstep with hparent | ⟨hunknown, rfl, rfl⟩
        · exact .inl (hold.tail hparent)
        · exact .inr ⟨hunknown, rfl, hold⟩
      · -- The way ends at the root, which has no parent and is a type.
        rcases hstep with hparent | ⟨hunknown, -, -⟩
        · rw [parentOf?_topType] at hparent
          cases hparent
        · cases hunknown
  · rintro (hold | ⟨hunknown, rfl, hold⟩)
    · exact hold.lift id fun _ _ => .inl
    · exact (hold.lift id fun _ _ => .inl).tail (.inr ⟨hunknown, rfl, rfl⟩)

theorem isType_addObject {name : Symbol} {type t : String} :
    ((after ds).addObject name type).1.isType t = true ↔
      (after ds).isType t = true ∨ t = Text.lowerSymbol type := by
  rw [isType, isType, parentOf?_addObject]
  by_cases htop : t = topType
  · simp [htop]
  · cases hparent : (after ds).parentOf? t with
    | some parent => simp
    | none => by_cases ht : t = Text.lowerSymbol type <;> simp [ht, htop, em]

/-- A declaration that is refused changes no answer about objects.  Of the answers about types it
changes those that speak about its own type, if that was not known: it is a type now, and the root
is an ancestor of it and of the types of which it was an ancestor.

The declaration registers its type before it is refused, and nothing takes that back; `h` says only
that it is refused. -/
theorem queries_after_conflict (ds : List Declaration) (name : Symbol) (type : String)
    (h : ((after ds).addObject name type).2.isSome = true) :
    let w := after ds
    let w' := ((after ds).addObject name type).1
    let found := Text.lowerSymbol type
    (∀ object, w'.isObject object = w.isObject object) ∧
      (∀ object t, w'.isInstance object t = w.isInstance object t) ∧
      (∀ t, w'.objectsOf t = w.objectsOf t) ∧ w'.objects.length = w.objects.length ∧
      (∀ t, w'.isType t = true ↔ w.isType t = true ∨ t = found) ∧
      ∀ sub t, w'.isSubtype sub t = true ↔ w.isSubtype sub t = true ∨
        w.isType found = false ∧ t = topType ∧ w.isSubtype sub found = true := by
  intro w w' found
  have hobjects : w'.objects = w.objects := objects_of_conflict h
  have htypeOf : ∀ object, w'.typeOf? object = w.typeOf? object := fun object => by
    rw [typeOf?, typeOf?, hobjects]
  have hinstance : ∀ object t, w'.isInstance object t = w.isInstance object t := by
    intro object t
    rw [Bool.eq_iff_iff, isInstance_iff, isInstance_iff, htypeOf]
    -- Only the way to the root is new, and anything belongs to the root.
    by_cases htop : t = topType
    · simp [htop]
    · simp only [isSubtype_addObject, htop, false_and, and_false, or_false, w', w]
  refine ⟨fun object => ?_, hinstance, fun t => ?_, by rw [hobjects], fun t => isType_addObject,
    fun sub t => isSubtype_addObject⟩
  · rw [isObject, isObject, htypeOf]
  · rw [objectsOf, objectsOf, hobjects]
    simp only [hinstance]

/-- Trucks, whose parent has no declaration of its own. -/
def truckOnly : List Declaration :=
  [.type "truck" (some "vehicle"), .object (.ofName "t1") "truck"]

/-- The truck is no vehicle in the first place, but the refused declaration makes vehicles known. -/
theorem queries_after_conflict_truck :
    ((after truckOnly).addObject (.ofName "T1") "Vehicle").2.isSome = true ∧
      ((after truckOnly).addObject (.ofName "T1") "Vehicle").1.isInstance "t1" "vehicle" =
        (after truckOnly).isInstance "t1" "vehicle" ∧
      (((after truckOnly).addObject (.ofName "T1") "Vehicle").1.isType "vehicle" = true ↔
        (after truckOnly).isType "vehicle" = true ∨ "vehicle" = Text.lowerSymbol "Vehicle") := by
  have hconflict : ((after truckOnly).addObject (.ofName "T1") "Vehicle").2.isSome = true := by
    decide +kernel
  obtain ⟨-, hinstance, -, -, htype, -⟩ := queries_after_conflict truckOnly _ _ hconflict
  exact ⟨hconflict, hinstance _ _, htype _⟩

/-- A type that is known by a refused declaration only, and the root as a new ancestor. -/
theorem conflict_declares_type :
    ((after truckOnly).addObject (.ofName "T1") "Vehicle").2.isSome = true ∧
      ((after truckOnly).isType "vehicle" = false ∧
        ((after truckOnly).addObject (.ofName "T1") "Vehicle").1.isType "vehicle" = true) ∧
      (after truckOnly).isSubtype "truck" "object" = false ∧
        ((after truckOnly).addObject (.ofName "T1") "Vehicle").1.isSubtype "truck" "object" =
          true := by
  refine ⟨?_, ⟨?_, ?_⟩, ?_, ?_⟩ <;> decide +kernel

end

end World

end PlanConstraints

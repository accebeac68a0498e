import PlanConstraints.Proofs.World.Hierarchy

set_option autoImplicit false

/-!
# The order of declarations

Where no type is declared twice and no object with two types, declarations may come in any order:
objects before their types, and types before their parents.  No declaration is refused, and all
queries have the same answers (`after_perm`); only the objects are listed in another order.

A type that is met first with an object becomes a child of the root, and its own declaration gives
it the parent that it would have had from the start.
-/

namespace PlanConstraints

namespace World

/-! ## Queries -/

section

variable {w w' : World}

/-- Who is a subtype of whom depends on the parents alone, not on how many there are. -/
theorem isSubtype_congr (h : ∀ type, w.parentOf? type = w'.parentOf? type) (sub type : String) :
    w.isSubtype sub type = w'.isSubtype sub type := by
  rw [Bool.eq_iff_iff, isSubtype_iff, isSubtype_iff]
  simp only [h]

theorem isInstance_congr (hparents : ∀ type, w.parentOf? type = w'.parentOf? type)
    (hobjects : ∀ object, w.typeOf? object = w'.typeOf? object) (object type : String) :
    w.isInstance object type = w'.isInstance object type := by
  rw [Bool.eq_iff_iff, isInstance_iff, isInstance_iff]
  simp only [hobjects, isSubtype_congr hparents]

end

/-! ## Declarations -/

section

variable {ds ds' : List Declaration}

/-- No declaration conflicts, if no object is declared with two types. -/
theorem accepted_of_objectEntries
    (h : ∀ e ∈ objectEntries ds, ∀ e' ∈ objectEntries ds, e.1 = e'.1 → e.2 = e'.2) :
    Accepted ds := by
  rintro seen d ⟨rest, rfl⟩
  cases d with
  | type name parent => rfl
  | object name type =>
    refine snd_addObject_eq_none _ _ _ fun previous hprevious => ?_
    rw [typeOf?_after] at hprevious
    have hmem : (Text.lowerSymbol name.name, previous) ∈ objectEntries seen :=
      mem_of_lookup_eq_some hprevious
    have hentries : objectEntries (seen ++ [.object name type] ++ rest) =
        objectEntries seen ++ [(Text.lowerSymbol name.name, Text.lowerSymbol type)]
          ++ objectEntries rest := by
      rw [← objectEntries_concat_object]
      exact List.filterMap_append
    refine h (Text.lowerSymbol name.name, previous) ?_
      (Text.lowerSymbol name.name, Text.lowerSymbol type) ?_ rfl
    · rw [hentries]
      exact List.mem_append_left _ (List.mem_append_left _ hmem)
    · rw [hentries]
      exact List.mem_append_left _ (List.mem_append_right _ (List.mem_singleton_self _))

theorem declaredParent?_perm (hperm : ds.Perm ds')
    (htypes : ((typeEntries ds).map Prod.fst).Nodup) (type : String) :
    declaredParent? ds type = declaredParent? ds' type := by
  have hentries : (typeEntries ds).reverse.Perm (typeEntries ds').reverse :=
    (List.reverse_perm _).trans ((hperm.filterMap _).trans (List.reverse_perm _).symm)
  have hlookup : (typeEntries ds).reverse.lookup type = (typeEntries ds').reverse.lookup type := by
    refine lookup_eq_of_perm hentries fun parent parent' hparent hparent' => ?_
    exact congrArg Prod.snd (List.inj_on_of_nodup_map htypes (List.mem_reverse.mp hparent)
      (List.mem_reverse.mp hparent') rfl)
  have hmem : type ∈ (objectEntries ds).map Prod.snd ↔ type ∈ (objectEntries ds').map Prod.snd :=
    ((hperm.filterMap _).map _).mem_iff
  unfold declaredParent?
  simp only [hlookup, hmem]

/-- Declarations may come in any order, where no type is declared twice and no object with two
types, whatever the letter case: none is refused, and queries have the same answers.

Both conditions bear load.  Of two declarations of a type the later one gives its parent, and of two
types of an object the earlier one stays and the other declaration is refused. -/
theorem after_perm (hperm : ds.Perm ds') (htypes : ((typeEntries ds).map Prod.fst).Nodup)
    (hobjects : ∀ e ∈ objectEntries ds, ∀ e' ∈ objectEntries ds, e.1 = e'.1 → e.2 = e'.2) :
    Accepted ds ∧ Accepted ds' ∧
      (∀ name, (after ds).isType name = (after ds').isType name) ∧
      (∀ name, (after ds).isObject name = (after ds').isObject name) ∧
      (∀ sub type, (after ds).isSubtype sub type = (after ds').isSubtype sub type) ∧
      (∀ object type, (after ds).isInstance object type = (after ds').isInstance object type) ∧
      ∀ type, ((after ds).objectsOf type).Perm ((after ds').objectsOf type) := by
  have hentries : (objectEntries ds).Perm (objectEntries ds') := hperm.filterMap _
  have hobjects' : ∀ e ∈ objectEntries ds', ∀ e' ∈ objectEntries ds', e.1 = e'.1 → e.2 = e'.2 :=
    fun e he e' he' => hobjects e (hentries.mem_iff.mpr he) e' (hentries.mem_iff.mpr he')
  have hparentOf : ∀ type, (after ds).parentOf? type = (after ds').parentOf? type := by
    intro type
    rw [parentOf?_after, parentOf?_after, declaredParent?_perm hperm htypes]
  have htypeOf : ∀ object, (after ds).typeOf? object = (after ds').typeOf? object := by
    intro object
    rw [typeOf?_after, typeOf?_after]
    exact lookup_eq_of_perm hentries fun type type' h h' => hobjects _ h _ h' rfl
  have hinstance := isInstance_congr hparentOf htypeOf
  refine ⟨accepted_of_objectEntries hobjects, accepted_of_objectEntries hobjects', fun name => ?_,
    fun name => ?_, isSubtype_congr hparentOf, hinstance, fun type => ?_⟩
  · rw [isType, isType, hparentOf]
  · rw [isObject, isObject, htypeOf]
  · have hnames : ((after ds).objects.map Prod.fst).Perm ((after ds').objects.map Prod.fst) := by
      rw [objects_after, objects_after]
      refine (List.perm_ext_iff_of_nodup (nodup_map_distinctBy _ _)
        (nodup_map_distinctBy _ _)).mpr fun name => ?_
      rw [mem_map_distinctBy, mem_map_distinctBy]
      exact (hentries.map _).mem_iff
    rw [objectsOf, objectsOf]
    simp only [hinstance]
    exact hnames.filter _

end

/-- Objects before their types, types before their parents, and one parent without a declaration of
its own. -/
def harbour : List Declaration :=
  [.object (.ofName "quay") "Dock", .object (.ofName "T1") "truck", .type "truck" (some "Vehicle"),
    .type "dock" (some "place"), .object (.ofName "depot") "place", .object (.ofName "t1") "Truck"]

/-- Read backwards, the objects of the places are listed in the other order. -/
theorem after_reverse_harbour :
    (Accepted harbour ∧ Accepted harbour.reverse) ∧
      (after harbour).isInstance "t1" "vehicle" =
        (after harbour.reverse).isInstance "t1" "vehicle" ∧
      ((after harbour).objectsOf "place").Perm ((after harbour.reverse).objectsOf "place") ∧
      (after harbour).isInstance "t1" "vehicle" = true ∧
      (after harbour).objectsOf "place" = ["quay", "depot"] ∧
      (after harbour.reverse).objectsOf "place" = ["depot", "quay"] := by
  obtain ⟨haccepted, hreverse, -, -, -, hinstance, hobjects⟩ :=
    after_perm (List.reverse_perm harbour).symm (by decide +kernel) (by decide +kernel)
  exact ⟨⟨haccepted, hreverse⟩, hinstance _ _, hobjects _, by decide +kernel, by decide +kernel,
    by decide +kernel⟩

end World

end PlanConstraints

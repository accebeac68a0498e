import Mathlib.Data.List.Perm.Subperm
import Mathlib.Data.List.Nodup
import Mathlib.Data.Nat.Find
import Mathlib.Logic.Relation
import PlanConstraints.Proofs.World.Declared

set_option autoImplicit false

/-!
# The type hierarchy

Walks from a type to its ancestors are bounded by the number of types.  That is enough, in cyclic
hierarchies too: on the way to the first occurrence of an ancestor no type comes twice, and all
types before it have a parent (`ancestor_le_length`).  So the walk decides who is an ancestor
(`isSubtype_iff`), and the objects of a type are those whose types have it as an ancestor
(`hierarchy_after`).
-/

namespace PlanConstraints

namespace World

variable {w : World}

/-! ## Ancestors -/

/-- The type that is reached by so many steps from child to parent. -/
def ancestor? (w : World) : Nat → String → Option String
  | 0, type => some type
  | steps + 1, type => (w.parentOf? type).bind (w.ancestor? steps)

theorem ancestor?_add (m n : Nat) (type : String) :
    w.ancestor? (m + n) type = (w.ancestor? m type).bind (w.ancestor? n) := by
  induction m generalizing type with
  | zero => rw [Nat.zero_add, ancestor?, Option.bind_some]
  | succ m ih =>
    rw [Nat.succ_add, ancestor?, ancestor?, Option.bind_assoc]
    congr 1
    funext parent
    exact ih parent

/-- The walk passes the ancestors that are fewer steps away. -/
theorem reaches_iff {steps : Nat} {sub type : String} :
    w.reaches steps sub type = true ↔ ∃ n < steps, w.ancestor? n sub = some type := by
  induction steps generalizing sub with
  | zero => simp [reaches]
  | succ steps ih =>
    rw [reaches, Bool.or_eq_true, beq_iff_eq]
    constructor
    · rintro (rfl | h)
      · exact ⟨0, Nat.succ_pos _, rfl⟩
      · split at h
        · next parent hparent =>
          obtain ⟨n, hn, hancestor⟩ := ih.mp h
          refine ⟨n + 1, Nat.succ_lt_succ hn, ?_⟩
          rw [ancestor?, hparent, Option.bind_some, hancestor]
        · cases h
    · rintro ⟨n, hn, hancestor⟩
      cases n with
      | zero =>
        cases hancestor
        exact .inl rfl
      | succ n =>
        rw [ancestor?] at hancestor
        obtain ⟨parent, hparent, hrest⟩ := Option.bind_eq_some_iff.mp hancestor
        rw [hparent]
        exact .inr (ih.mpr ⟨n, Nat.lt_of_succ_lt_succ hn, hrest⟩)

/-- An ancestor can be reached by steps to the parent, and only those can. -/
theorem exists_ancestor?_iff {sub type : String} :
    (∃ n, w.ancestor? n sub = some type) ↔
      Relation.ReflTransGen (fun child parent => w.parentOf? child = some parent) sub type := by
  constructor
  · rintro ⟨n, hn⟩
    induction n generalizing sub with
    | zero =>
      cases hn
      exact .refl
    | succ n ih =>
      rw [ancestor?] at hn
      obtain ⟨parent, hparent, hrest⟩ := Option.bind_eq_some_iff.mp hn
      exact .head hparent (ih hrest)
  · intro h
    induction h using Relation.ReflTransGen.head_induction_on with
    | refl => exact ⟨0, rfl⟩
    | head hparent _ ih =>
      obtain ⟨n, hn⟩ := ih
      exact ⟨n + 1, by rw [ancestor?, hparent, Option.bind_some, hn]⟩

/-! ## The bound -/

/-- All types on the way to an ancestor have a parent. -/
theorem mem_parents_of_ancestor? {m n : Nat} {sub type : String}
    (h : w.ancestor? n sub = some type) (hlt : m < n) :
    w.ancestor? m sub ∈ w.parents.map fun entry => some entry.1 := by
  obtain ⟨k, rfl⟩ := Nat.exists_eq_add_of_lt hlt
  rw [Nat.add_assoc, ancestor?_add] at h
  obtain ⟨between, hbetween, hrest⟩ := Option.bind_eq_some_iff.mp h
  rw [ancestor?] at hrest
  obtain ⟨parent, hparent, -⟩ := Option.bind_eq_some_iff.mp hrest
  rw [hbetween]
  exact List.mem_map.mpr ⟨(between, parent), mem_of_lookup_eq_some hparent, rfl⟩

/-- No type comes twice on the shortest way to an ancestor. -/
theorem ancestor?_ne_of_lt {m m' n : Nat} {sub type : String} (h : w.ancestor? n sub = some type)
    (hfirst : ∀ k < n, w.ancestor? k sub ≠ some type) (hlt : m < m') (hle : m' < n) :
    w.ancestor? m sub ≠ w.ancestor? m' sub := by
  intro heq
  -- Otherwise the part of the way between the two could be left out.
  obtain ⟨k, rfl⟩ := Nat.exists_eq_add_of_le (Nat.le_of_lt hle)
  refine hfirst (m + k) (Nat.add_lt_add_right hlt k) ?_
  rw [ancestor?_add, heq, ← ancestor?_add, h]

/-- The shortest way to an ancestor has no more steps than there are types with a parent. -/
theorem ancestor_le_length {n : Nat} {sub type : String} (h : w.ancestor? n sub = some type)
    (hfirst : ∀ k < n, w.ancestor? k sub ≠ some type) : n ≤ w.parents.length := by
  have hnodup : ((List.range n).map fun m => w.ancestor? m sub).Nodup := by
    refine List.Nodup.map_on (fun m hm m' hm' heq => ?_) List.nodup_range
    rcases Nat.lt_trichotomy m m' with hlt | rfl | hlt
    · exact absurd heq (ancestor?_ne_of_lt h hfirst hlt (List.mem_range.mp hm'))
    · rfl
    · exact absurd heq.symm (ancestor?_ne_of_lt h hfirst hlt (List.mem_range.mp hm))
  have hsubset : ((List.range n).map fun m => w.ancestor? m sub) ⊆
      w.parents.map fun entry => some entry.1 := by
    intro entry hentry
    obtain ⟨m, hm, rfl⟩ := List.mem_map.mp hentry
    exact mem_parents_of_ancestor? h (List.mem_range.mp hm)
  simpa using (List.subperm_of_subset hnodup hsubset).length_le

/-- One type is a subtype of another exactly if it is the same or leads to it by steps from child to
parent. -/
theorem isSubtype_iff {sub type : String} :
    w.isSubtype sub type = true ↔
      Relation.ReflTransGen (fun child parent => w.parentOf? child = some parent) sub type := by
  rw [isSubtype, reaches_iff, ← exists_ancestor?_iff]
  constructor
  · rintro ⟨n, -, hn⟩
    exact ⟨n, hn⟩
  · intro h
    have hle := ancestor_le_length (Nat.find_spec h) fun k hk => Nat.find_min h hk
    exact ⟨Nat.find h, Nat.lt_succ_of_le hle, Nat.find_spec h⟩

/-! ## Objects -/

/-- An object belongs to a type if its own type is a subtype, and anything belongs to the root. -/
theorem isInstance_iff {object type : String} :
    w.isInstance object type = true ↔
      type = topType ∨
        ∃ declared, w.typeOf? object = some declared ∧ w.isSubtype declared type = true := by
  rw [isInstance, Bool.or_eq_true, beq_iff_eq]
  cases w.typeOf? object <;> simp

section

variable {ds : List Declaration}

/-- After the declarations, the second type can be reached from the first one by steps from child to
parent. -/
def IsSubtypeOf (ds : List Declaration) : String → String → Prop :=
  Relation.ReflTransGen fun child parent => declaredParent? ds child = some parent

theorem isSubtype_after_iff {sub type : String} :
    (after ds).isSubtype sub type = true ↔ IsSubtypeOf ds sub type := by
  rw [isSubtype_iff, IsSubtypeOf]
  simp only [parentOf?_after]

/-- An object has the type that it was declared with first. -/
theorem typeOf?_after (object : String) :
    (after ds).typeOf? object = (objectEntries ds).lookup object := by
  rw [typeOf?, objects_after, firstObjects, lookup_distinctBy]

theorem typeOf?_of_mem_firstObjects {entry : String × String} (h : entry ∈ firstObjects ds) :
    (after ds).typeOf? entry.1 = some entry.2 := by
  rw [typeOf?, objects_after]
  refine (lookup_eq_some_iff_mem fun type type' htype htype' => ?_).mpr h
  have hnodup : ((firstObjects ds).map Prod.fst).Nodup := nodup_map_distinctBy Prod.fst _
  exact congrArg Prod.snd (List.inj_on_of_nodup_map hnodup htype htype' rfl)

open Classical in
/-- The walk along the hierarchy finds what can be reached by steps to the declared parents, however
the hierarchy was declared.  The objects of a type, each once and in order of first declaration, are
those whose declared type leads to it, and for the root all objects.

There is no hypothesis: hierarchies may have cycles, types may be declared again, and declarations
may be refused.  The walk goes on for as many steps as there are types, which is enough for every
path without repetitions. -/
theorem hierarchy_after (ds : List Declaration) :
    (∀ sub type, (after ds).isSubtype sub type = true ↔ IsSubtypeOf ds sub type) ∧
      ∀ type, ((after ds).objectsOf type).Nodup ∧
        (after ds).objectsOf type =
          ((firstObjects ds).filter fun entry =>
            type = topType ∨ IsSubtypeOf ds entry.2 type).map Prod.fst := by
  refine ⟨fun sub type => isSubtype_after_iff, fun type => ⟨?_, ?_⟩⟩
  · rw [objectsOf, objects_after]
    exact (nodup_map_distinctBy Prod.fst _).filter _
  · rw [objectsOf, objects_after, List.filter_map]
    congr 1
    refine List.filter_congr fun entry hentry => ?_
    rw [Function.comp_apply, Bool.eq_iff_iff, isInstance_iff, decide_eq_true_iff,
      typeOf?_of_mem_firstObjects hentry]
    simp only [Option.some.injEq, exists_eq_left', isSubtype_after_iff]

/-- Two types that are each other's parents have the same objects. -/
example :
    let w := after [.type "a" (some "b"), .type "b" (some "a"), .object (.ofName "o") "a"]
    w.objectsOf "a" = ["o"] ∧ w.objectsOf "b" = ["o"] ∧ w.isSubtype "a" "object" = false := by
  decide +kernel

end

end World

end PlanConstraints

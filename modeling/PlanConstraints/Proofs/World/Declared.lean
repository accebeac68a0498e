import Mathlib.Data.List.Induction
import PlanConstraints.Distinct
import PlanConstraints.Proofs.Text.LowerCase
import PlanConstraints.World.Basic

set_option autoImplicit false

/-!
# What a sequence of declarations declares

The types and objects that are there after a sequence of declarations, read off the sequence:
`parentOf?_after` says which parent a type has, `objects_after` which objects there are, in which
order and of which type.  The last parent that a type is given counts, and the first type that an
object is given.  A type that only objects are declared with is a child of the root.
-/

namespace PlanConstraints

namespace World

/-! ## Declarations -/

/-- A declaration of a type, with or without a parent, or of an object with its type. -/
inductive Declaration where
  | type (name : String) (parent : Option String)
  | object (name : Symbol) (type : String)

namespace Declaration

/-- The type that is declared, and its parent, in lower case. -/
def typeEntry? : Declaration → Option (String × String)
  | .type name parent => some (Text.lowerSymbol name, parent.elim topType Text.lowerSymbol)
  | .object _ _ => none

/-- The object that is declared, and its type, in lower case. -/
def objectEntry? : Declaration → Option (String × String)
  | .type _ _ => none
  | .object name declared => some (Text.lowerSymbol name.name, Text.lowerSymbol declared)

end Declaration

/-- Carries out a declaration, which may conflict with an earlier one. -/
def add (w : World) : Declaration → World × Option TypeConflict
  | .type name parent => (w.addType name parent, none)
  | .object name type => w.addObject name type

/-- The types and objects after declarations one after the other, those that conflict with an
earlier one included. -/
def after (ds : List Declaration) : World := ds.foldl (fun w d => (w.add d).1) empty

/-- No declaration conflicts with an earlier one. -/
def Accepted (ds : List Declaration) : Prop :=
  ∀ seen d, seen ++ [d] <+: ds → ((after seen).add d).2 = none

@[simp] theorem after_nil : after [] = empty := rfl

@[simp] theorem after_concat (ds : List Declaration) (d : Declaration) :
    after (ds ++ [d]) = ((after ds).add d).1 := by
  rw [after, List.foldl_append]
  rfl

/-! ## What is declared -/

/-- The declared types, each with its parent. -/
def typeEntries (ds : List Declaration) : List (String × String) :=
  ds.filterMap Declaration.typeEntry?

/-- The declared objects, each with its type. -/
def objectEntries (ds : List Declaration) : List (String × String) :=
  ds.filterMap Declaration.objectEntry?

/-- The parent with which a type is declared last.  A type that objects are declared with is a child
of the root without a declaration of its own. -/
def declaredParent? (ds : List Declaration) (type : String) : Option String :=
  if type = topType then none
  else
    ((typeEntries ds).reverse.lookup type).or
      (if type ∈ (objectEntries ds).map Prod.snd then some topType else none)

/-- The declared objects in order of first declaration, each with the type that it was declared with
first. -/
def firstObjects (ds : List Declaration) : List (String × String) :=
  distinctBy Prod.fst (objectEntries ds)

section

variable (ds : List Declaration)

@[simp] theorem typeEntries_concat_type (name : String) (parent : Option String) :
    typeEntries (ds ++ [.type name parent]) =
      typeEntries ds ++ [(Text.lowerSymbol name, parent.elim topType Text.lowerSymbol)] := by
  simp [typeEntries, Declaration.typeEntry?]

@[simp] theorem typeEntries_concat_object (name : Symbol) (type : String) :
    typeEntries (ds ++ [.object name type]) = typeEntries ds := by
  simp [typeEntries, Declaration.typeEntry?]

@[simp] theorem objectEntries_concat_type (name : String) (parent : Option String) :
    objectEntries (ds ++ [.type name parent]) = objectEntries ds := by
  simp [objectEntries, Declaration.objectEntry?]

@[simp] theorem objectEntries_concat_object (name : Symbol) (type : String) :
    objectEntries (ds ++ [.object name type]) =
      objectEntries ds ++ [(Text.lowerSymbol name.name, Text.lowerSymbol type)] := by
  simp [objectEntries, Declaration.objectEntry?]

end

/-! ## One declaration -/

section

variable (w : World)

theorem lookup_setEntry (key value k : String) (entries : List (String × String)) :
    (setEntry key value entries).lookup k =
      if k = key then some value else entries.lookup k := by
  induction entries with
  | nil =>
    by_cases hk : k = key
    · simp [setEntry, hk]
    · simp [setEntry, List.lookup_cons, hk, beq_eq_false_iff_ne.mpr hk]
  | cons entry entries ih =>
    obtain ⟨k', v⟩ := entry
    rw [setEntry]
    split
    · next hkey =>
      by_cases hk : k = k'
      · simp [hk, hkey]
      · simp [List.lookup_cons, beq_eq_false_iff_ne.mpr hk, hkey ▸ hk]
    · next hkey =>
      by_cases hk : k = k'
      · simp [hk, hkey]
      · simp [List.lookup_cons, beq_eq_false_iff_ne.mpr hk, ih]

/-- A declaration of a type sets its parent, unless it is the root. -/
theorem parentOf?_addType (name : String) (parent : Option String) (t : String) :
    (w.addType name parent).parentOf? t =
      if t = Text.lowerSymbol name ∧ t ≠ topType then
        some (parent.elim topType Text.lowerSymbol)
      else w.parentOf? t := by
  unfold addType
  simp only
  by_cases htop : Text.lowerSymbol name = topType
  · rw [if_pos htop, if_neg]
    rintro ⟨rfl, hne⟩
    exact hne htop
  · rw [if_neg htop, parentOf?, lookup_setEntry, parentOf?]
    have hiff : t = Text.lowerSymbol name ∧ t ≠ topType ↔ t = Text.lowerSymbol name :=
      and_iff_left_of_imp fun ht => ht ▸ htop
    simp only [hiff]
    cases parent <;> rfl

@[simp] theorem objects_addType (name : String) (parent : Option String) :
    (w.addType name parent).objects = w.objects := by
  unfold addType
  simp only
  split <;> rfl

/-- The type is a child of the root, unless it is known. -/
def withType (type : String) : World :=
  if type ≠ topType ∧ w.parentOf? type = none then w.addType type none else w

@[simp] theorem objects_withType (type : String) : (w.withType type).objects = w.objects := by
  unfold withType
  split
  · exact objects_addType w _ _
  · rfl

theorem parentOf?_withType {type : String} (htype : Text.lowerSymbol type = type) (t : String) :
    (w.withType type).parentOf? t =
      (w.parentOf? t).or (if t = type ∧ t ≠ topType then some topType else none) := by
  unfold withType
  by_cases ht : t = type ∧ t ≠ topType
  · obtain ⟨rfl, htop⟩ := ht
    cases hparent : w.parentOf? t with
    | none => simp [htop, parentOf?_addType, htype]
    | some parent => simp [hparent]
  · rw [if_neg ht, Option.or_none]
    split
    · rw [parentOf?_addType, htype, if_neg ht]
    · rfl

/-- What a declaration of an object does. -/
theorem addObject_eq (name : Symbol) (type : String) :
    w.addObject name type =
      match w.typeOf? (Text.lowerSymbol name.name) with
      | none =>
        ({ w.withType (Text.lowerSymbol type) with
            objects := w.objects ++ [(Text.lowerSymbol name.name, Text.lowerSymbol type)] }, none)
      | some previous =>
        (w.withType (Text.lowerSymbol type),
          if previous = Text.lowerSymbol type then none
          else
            some ⟨name.rename (Text.lowerSymbol name.name), previous, Text.lowerSymbol type⟩) := by
  have htype : (w.withType (Text.lowerSymbol type)).typeOf? (Text.lowerSymbol name.name) =
      w.typeOf? (Text.lowerSymbol name.name) := by
    rw [typeOf?, objects_withType, typeOf?]
  unfold addObject
  simp only
  rw [← withType, htype, objects_withType]
  cases w.typeOf? (Text.lowerSymbol name.name) with
  | none => rfl
  | some previous =>
    simp only
    split <;> rfl

/-- A declaration of an object makes its type a child of the root, if that has no parent. -/
theorem parentOf?_addObject (name : Symbol) (type t : String) :
    (w.addObject name type).1.parentOf? t =
      (w.parentOf? t).or
        (if t = Text.lowerSymbol type ∧ t ≠ topType then some topType else none) := by
  rw [← parentOf?_withType w (Text.lowerSymbol_lowerSymbol type), addObject_eq]
  cases w.typeOf? (Text.lowerSymbol name.name) <;> rfl

/-- A declaration of an object adds it, if there is none of its name. -/
theorem objects_addObject (name : Symbol) (type : String) :
    (w.addObject name type).1.objects =
      if w.typeOf? (Text.lowerSymbol name.name) = none then
        w.objects ++ [(Text.lowerSymbol name.name, Text.lowerSymbol type)]
      else w.objects := by
  rw [addObject_eq]
  cases w.typeOf? (Text.lowerSymbol name.name) with
  | none => rfl
  | some previous => exact objects_withType w _

/-- A declaration of an object only conflicts with another type of the object. -/
theorem snd_addObject_eq_none (name : Symbol) (type : String)
    (h : ∀ previous, w.typeOf? (Text.lowerSymbol name.name) = some previous →
      previous = Text.lowerSymbol type) : (w.addObject name type).2 = none := by
  rw [addObject_eq]
  cases hprevious : w.typeOf? (Text.lowerSymbol name.name) with
  | none => rfl
  | some previous => exact if_pos (h previous hprevious)

end

/-! ## All declarations -/

/-- The parents are those with which types are declared last. -/
theorem parentOf?_after (ds : List Declaration) (t : String) :
    (after ds).parentOf? t = declaredParent? ds t := by
  induction ds using List.reverseRecOn with
  | nil => simp [declaredParent?, typeEntries, objectEntries, parentOf?, empty]
  | append_singleton ds d ih =>
    rw [after_concat]
    unfold declaredParent? at ih ⊢
    cases d with
    | type name parent =>
      rw [add, parentOf?_addType, ih, typeEntries_concat_type, objectEntries_concat_type,
        List.reverse_append, List.reverse_singleton, List.singleton_append, List.lookup_cons]
      by_cases htop : t = topType
      · simp [htop]
      · by_cases ht : t = Text.lowerSymbol name
        · simp [ht, ht ▸ htop]
        · simp [ht, htop, beq_eq_false_iff_ne.mpr ht]
    | object name type =>
      rw [add, parentOf?_addObject, ih, typeEntries_concat_object, objectEntries_concat_object]
      by_cases htop : t = topType
      · simp [htop]
      · rw [if_neg htop, if_neg htop, Option.or_assoc]
        congr 1
        simp only [List.map_append, List.mem_append, List.map_singleton, List.mem_singleton]
        by_cases hmem : t ∈ (objectEntries ds).map Prod.snd
        · rw [if_pos hmem, Option.some_or, if_pos (.inl hmem)]
        · simp only [hmem, htop, false_or, ne_eq, not_false_eq_true, and_true, if_false,
            Option.none_or]

/-- The objects are those that were declared, each with its first type. -/
theorem objects_after (ds : List Declaration) : (after ds).objects = firstObjects ds := by
  induction ds using List.reverseRecOn with
  | nil => rfl
  | append_singleton ds d ih =>
    rw [after_concat]
    cases d with
    | type name parent =>
      rw [add, objects_addType, ih, firstObjects, firstObjects, objectEntries_concat_type]
    | object name type =>
      rw [add, objects_addObject, typeOf?, ih, firstObjects, firstObjects,
        objectEntries_concat_object, lookup_distinctBy, distinctBy_concat]
      simp only [lookup_eq_none_iff]
      by_cases hmem : Text.lowerSymbol name.name ∈ (objectEntries ds).map Prod.fst
      · rw [if_neg (not_not_intro hmem), if_pos hmem, List.append_nil]
      · rw [if_pos hmem, if_neg hmem]

end World

end PlanConstraints

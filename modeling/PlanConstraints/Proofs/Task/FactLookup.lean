import PlanConstraints.Proofs.Task.FactNames
import PlanConstraints.Proofs.Text.CommaSpaces

set_option autoImplicit false

/-!
# The fact that a name finds

Names mean the same fact if they are equal but for letter case, the white space around them and the
spaces behind commas.  A name finds the first fact, by variable and then by value, with a name that
means the same and has as many spaces behind every comma, where none counts as one
(`findFact?_isFirst`).  Where no comma has more than one space behind it the spaces do not matter.
-/

namespace PlanConstraints

/-- The name of a fact without all that does not matter: the spaces behind commas, the white space
around the name and letter case. -/
def plainFactName (name : String) : String :=
  Text.lowerCase (String.ofList (Text.trim (Text.dropCommaSpaces false name.toList)))

/-- The names mean the same fact. -/
def SameFact (name name' : String) : Prop := plainFactName name = plainFactName name'

instance (name name' : String) : Decidable (SameFact name name') :=
  inferInstanceAs (Decidable (_ = _))

/-- For every comma of a name the number of spaces behind it, but for one. -/
def furtherSpaces (name : String) : List Nat :=
  (Text.commaSpaces (Text.trim name.toList)).map (· - 1)

/-- No comma of the name has more than one space behind it. -/
def SingleSpaced (name : String) : Prop := ∀ n ∈ furtherSpaces name, n = 0

instance (name : String) : Decidable (SingleSpaced name) :=
  inferInstanceAs (Decidable (∀ n ∈ _, n = 0))

/-! ## One space less -/

theorem spaces_closeCommas (cs : List Char) :
    Text.spaces (factName.closeCommas cs) = Text.spaces cs := by
  fun_induction factName.closeCommas cs with
  | case1 => rfl
  | case2 cs ih => rfl
  | case3 c cs hcomma ih => rw [Text.spaces, Text.spaces, ih]

theorem commaSpaces_closeCommas (cs : List Char) :
    Text.commaSpaces (factName.closeCommas cs) = (Text.commaSpaces cs).map (· - 1) := by
  fun_induction factName.closeCommas cs with
  | case1 => rfl
  | case2 cs ih =>
    have hspace : Text.commaSpaces (' ' :: cs) = Text.commaSpaces cs := rfl
    have hspaces : Text.spaces (' ' :: cs) - 1 = Text.spaces cs := rfl
    rw [Text.commaSpaces, if_pos rfl, Text.commaSpaces, if_pos rfl, ih, spaces_closeCommas,
      List.map_cons, hspace, hspaces]
  | case3 c cs hcomma ih =>
    rw [Text.commaSpaces, Text.commaSpaces, ih, spaces_closeCommas]
    split
    · next hc =>
      -- No space follows this comma.
      have hnone : Text.spaces cs = 0 := by
        obtain _ | ⟨d, cs⟩ := cs
        · rfl
        · apply if_neg
          rintro rfl
          exact hcomma cs hc rfl
      rw [List.map_cons, hnone]
    · rfl

theorem dropCommaSpaces_closeCommas (behind : Bool) (cs : List Char) :
    Text.dropCommaSpaces behind (factName.closeCommas cs) = Text.dropCommaSpaces behind cs := by
  fun_induction factName.closeCommas cs generalizing behind with
  | case1 => rfl
  | case2 cs ih =>
    rw [Text.dropCommaSpaces_comma, Text.dropCommaSpaces_comma, Text.dropCommaSpaces_space, ih]
  | case3 c cs hcomma ih => rw [Text.dropCommaSpaces, Text.dropCommaSpaces, ih, ih]

/-! ## Names as they are compared -/

/-- Nothing else is dropped from a name as it is compared. -/
theorem dropCommaSpaces_factName (name : String) :
    Text.dropCommaSpaces false (factName name).toList = (plainFactName name).toList := by
  rw [factName, plainFactName, Text.lowerCase, Text.lowerCase, String.toList_ofList,
    String.toList_ofList, String.toList_ofList, String.toList_ofList,
    ← Text.lowerAfter_dropCommaSpaces (by simp), dropCommaSpaces_closeCommas,
    Text.trim_dropCommaSpaces]

theorem commaSpaces_factName (name : String) :
    Text.commaSpaces (factName name).toList = furtherSpaces name := by
  rw [factName, Text.lowerCase, String.toList_ofList, String.toList_ofList,
    Text.commaSpaces_lowerAfter, commaSpaces_closeCommas, furtherSpaces]

/-- Names are compared as equal exactly if they mean the same fact and have the same further spaces
behind their commas. -/
theorem factName_eq_iff {name name' : String} : factName name = factName name' ↔
    SameFact name name' ∧ furtherSpaces name = furtherSpaces name' := by
  constructor
  · intro h
    constructor
    · apply String.toList_inj.mp
      rw [← dropCommaSpaces_factName, ← dropCommaSpaces_factName, h]
    · rw [← commaSpaces_factName, ← commaSpaces_factName, h]
  · rintro ⟨hsame, hspaces⟩
    have hdrop : Text.dropCommaSpaces false (factName name).toList =
        Text.dropCommaSpaces false (factName name').toList := by
      rw [dropCommaSpaces_factName, dropCommaSpaces_factName, hsame]
    apply String.toList_inj.mp
    apply Text.eq_of_dropCommaSpaces hdrop
    · rw [commaSpaces_factName, commaSpaces_factName, hspaces]
    · intro h
      cases h

theorem length_furtherSpaces (name : String) :
    (furtherSpaces name).length = (plainFactName name).toList.count ',' := by
  rw [← commaSpaces_factName, Text.length_commaSpaces, ← dropCommaSpaces_factName,
    Text.count_comma_dropCommaSpaces]

/-- The further spaces of such names are no spaces, as often as there are commas. -/
theorem SingleSpaced.furtherSpaces_eq {name name' : String} (h : SingleSpaced name)
    (h' : SingleSpaced name') (hsame : SameFact name name') :
    furtherSpaces name = furtherSpaces name' := by
  have hlength : (furtherSpaces name).length = (furtherSpaces name').length := by
    rw [length_furtherSpaces, length_furtherSpaces, hsame]
  rw [List.eq_replicate_of_mem h, List.eq_replicate_of_mem h', hlength]

/-! ## Values -/

/-- What stands behind the mark of a fact. -/
theorem drop_factMark_append (atom : String) :
    String.ofList ((factMark ++ atom).toList.drop factMark.length) = atom := by
  rw [String.toList_append, ← String.length_toList, List.drop_left, String.ofList_toList]

theorem factOfValue?_eq_some_iff {value name : String} :
    factOfValue? value = some name ↔ ∃ atom, value = factMark ++ atom ∧ factName atom = name := by
  rw [factOfValue?]
  constructor
  · intro h
    split at h
    · next hmark =>
      obtain ⟨rest, hrest⟩ := List.isPrefixOf_iff_prefix.mp hmark
      have hvalue : value = factMark ++ String.ofList rest := by
        apply String.toList_inj.mp
        rw [String.toList_append, String.toList_ofList, hrest]
      rw [hvalue, drop_factMark_append] at h
      exact ⟨String.ofList rest, hvalue, Option.some.inj h⟩
    · cases h
  · rintro ⟨atom, rfl, rfl⟩
    have hmark : factMark.toList.isPrefixOf (factMark ++ atom).toList = true := by
      rw [List.isPrefixOf_iff_prefix, String.toList_append]
      exact List.prefix_append _ _
    rw [if_pos hmark, drop_factMark_append]

namespace Task

/-- The fact stands for a value of a kind, and it is the first one that does, by variable and then
by value. -/
structure IsFirstValue (t : Task) (kind : String → Prop) (f : Fact) : Prop where
  isValue : ∃ value, t.valueOf? f = some value ∧ kind value
  isFirst : ∀ g value, t.valueOf? g = some value → kind value →
    f.var < g.var ∨ f.var = g.var ∧ f.value ≤ g.value

/-- The name finds the first value of a kind, and nothing if there is none. -/
structure FindsFirst (t : Task) (name : String) (kind : String → Prop) : Prop where
  some_iff : ∀ f, t.findFact? name = some f ↔ t.IsFirstValue kind f
  none_iff : t.findFact? name = none ↔ ∀ f value, t.valueOf? f = some value → ¬ kind value

theorem IsFirstValue.unique {t : Task} {kind : String → Prop} {f g : Fact}
    (hf : t.IsFirstValue kind f) (hg : t.IsFirstValue kind g) : f = g := by
  obtain ⟨value, hvalue, hkind⟩ := hf.isValue
  obtain ⟨value', hvalue', hkind'⟩ := hg.isValue
  obtain ⟨var, number⟩ := f
  obtain ⟨var', number'⟩ := g
  rcases hf.isFirst _ _ hvalue' hkind' with hlt | ⟨hvar, hle⟩
  · rcases hg.isFirst _ _ hvalue hkind with hgt | ⟨hvar, -⟩
    · exact absurd hgt (Nat.lt_asymm hlt)
    · exact absurd hvar (Nat.ne_of_gt hlt)
  · rcases hg.isFirst _ _ hvalue hkind with hgt | ⟨-, hge⟩
    · exact absurd hvar (Nat.ne_of_gt hgt)
    · have hvar : var = var' := hvar
      have hnumber : number = number' := Nat.le_antisymm hle hge
      rw [hvar, hnumber]

/-! ## What is found -/

theorem le_of_findValue {name : String} {values : List String} {number i : Nat}
    (h : findValue name number values = some i) {j : Nat} {value : String}
    (hvalue : values[j]? = some value) (hname : factOfValue? value = some name) :
    i ≤ number + j := by
  induction values generalizing number j with
  | nil => cases h
  | cons first values ih =>
    rw [findValue] at h
    split at h
    · cases h
      omega
    · next hfirst =>
      cases j with
      | zero =>
        cases hvalue
        exact absurd hname hfirst
      | succ j =>
        have hle := ih h hvalue
        omega

theorem le_of_findFactFrom {name : String} {vs : List Variable} {var : VarId} {f : Fact}
    (h : findFactFrom name var vs = some f) {i j : Nat} {v : Variable} {value : String}
    (hv : vs[i]? = some v) (hvalue : v.values[j]? = some value)
    (hname : factOfValue? value = some name) :
    f.var < var + i ∨ f.var = var + i ∧ f.value ≤ j := by
  induction vs generalizing var i with
  | nil => cases hv
  | cons first vs ih =>
    rw [findFactFrom] at h
    split at h
    · next number hnumber =>
      cases h
      cases i with
      | zero =>
        cases hv
        have hle := le_of_findValue hnumber hvalue hname
        rw [Nat.zero_add] at hle
        exact .inr ⟨rfl, hle⟩
      | succ i => exact .inl (Nat.lt_add_of_pos_right (Nat.succ_pos i))
    · next hnone =>
      cases i with
      | zero =>
        cases hv
        exact absurd hname ((findValue_eq_none_iff 0).mp hnone value (List.mem_of_getElem? hvalue))
      | succ i =>
        have hle := ih h hv
        rwa [Nat.add_assoc, Nat.add_comm 1 i] at hle

theorem valueOf?_eq_some_iff {t : Task} {f : Fact} {value : String} :
    t.valueOf? f = some value ↔ ∃ v, t.vars[f.var]? = some v ∧ v.values[f.value]? = some value :=
  Option.bind_eq_some_iff

theorem isFirstValue_of_findFact? {t : Task} {name : String} {f : Fact}
    (h : t.findFact? name = some f) :
    t.IsFirstValue (fun value => factOfValue? value = some (factName name)) f where
  isValue := factOfValue?_of_findFact? h
  isFirst := by
    intro g value hvalue hname
    obtain ⟨v, hv, hvalue⟩ := valueOf?_eq_some_iff.mp hvalue
    have hle := le_of_findFactFrom h hv hvalue hname
    rwa [Nat.zero_add] at hle

theorem findFact?_eq_none_iff {t : Task} {name : String} : t.findFact? name = none ↔
    ∀ f value, t.valueOf? f = some value → factOfValue? value ≠ some (factName name) := by
  rw [findFact?, findFactFrom_eq_none_iff]
  constructor
  · intro h f value hvalue
    obtain ⟨v, hv, hvalue⟩ := valueOf?_eq_some_iff.mp hvalue
    exact h v (List.mem_of_getElem? hv) value (List.mem_of_getElem? hvalue)
  · intro h v hv value hvalue
    obtain ⟨i, hi⟩ := List.mem_iff_getElem?.mp hv
    obtain ⟨j, hj⟩ := List.mem_iff_getElem?.mp hvalue
    exact h ⟨i, j⟩ value (valueOf?_eq_some_iff.mpr ⟨v, hi, hj⟩)

theorem findsFirst_factOfValue? (t : Task) (name : String) :
    t.FindsFirst name fun value => factOfValue? value = some (factName name) where
  some_iff f := by
    constructor
    · exact isFirstValue_of_findFact?
    · intro hf
      cases hfind : t.findFact? name with
      | none =>
        obtain ⟨value, hvalue, hname⟩ := hf.isValue
        exact absurd hname (findFact?_eq_none_iff.mp hfind f value hvalue)
      | some g => rw [(isFirstValue_of_findFact? hfind).unique hf]
  none_iff := findFact?_eq_none_iff

/-- Values of the task that are of one kind are of the other. -/
theorem FindsFirst.congr {t : Task} {name : String} {kind kind' : String → Prop}
    (h : t.FindsFirst name kind)
    (hkind : ∀ f value, t.valueOf? f = some value → (kind value ↔ kind' value)) :
    t.FindsFirst name kind' where
  some_iff f := by
    rw [h.some_iff f]
    constructor
    · rintro ⟨⟨value, hvalue, hf⟩, hfirst⟩
      refine ⟨⟨value, hvalue, (hkind f value hvalue).mp hf⟩, ?_⟩
      intro g value' hvalue' hg
      exact hfirst g value' hvalue' ((hkind g value' hvalue').mpr hg)
    · rintro ⟨⟨value, hvalue, hf⟩, hfirst⟩
      refine ⟨⟨value, hvalue, (hkind f value hvalue).mpr hf⟩, ?_⟩
      intro g value' hvalue' hg
      exact hfirst g value' hvalue' ((hkind g value' hvalue').mp hg)
  none_iff := by
    rw [h.none_iff]
    constructor
    · intro hnone f value hvalue hf
      exact hnone f value hvalue ((hkind f value hvalue).mpr hf)
    · intro hnone f value hvalue hf
      exact hnone f value hvalue ((hkind f value hvalue).mp hf)

/-- A name finds the first value with a name of the same fact that has the same further spaces
behind its commas.  If there are none in the name and in those names of values that mean the same
fact, it finds the first value with a name of the same fact.

The first part has no hypothesis.  The second one needs `SingleSpaced`, since only one space behind
a comma is dropped, and a name with more of them is not found by one with fewer. -/
theorem findFact?_isFirst (t : Task) (name : String) :
    (t.FindsFirst name fun value => ∃ atom, value = factMark ++ atom ∧ SameFact atom name ∧
      furtherSpaces atom = furtherSpaces name) ∧
    (SingleSpaced name →
      (∀ f atom, t.valueOf? f = some (factMark ++ atom) → SameFact atom name →
        SingleSpaced atom) →
      t.FindsFirst name fun value => ∃ atom, value = factMark ++ atom ∧ SameFact atom name) := by
  have hfinds : t.FindsFirst name fun value => ∃ atom, value = factMark ++ atom ∧
      SameFact atom name ∧ furtherSpaces atom = furtherSpaces name := by
    apply (t.findsFirst_factOfValue? name).congr
    intro f value _
    rw [factOfValue?_eq_some_iff]
    simp only [factName_eq_iff]
  refine ⟨hfinds, ?_⟩
  intro hname hvalues
  apply hfinds.congr
  intro f value hvalue
  constructor
  · rintro ⟨atom, hatom, hsame, -⟩
    exact ⟨atom, hatom, hsame⟩
  · rintro ⟨atom, rfl, hsame⟩
    exact ⟨atom, rfl, hsame, (hvalues f atom hvalue hsame).furtherSpaces_eq hname hsame⟩

end Task

/-! ## A parking lot -/

/-- A truck that is at home, at the depot or, as a value no fact stands for, on the road. -/
def parkingLot : Task :=
  Task.empty.addStateVariable
    ["Atom at(truck,  home)", "<none of those>", "Atom At(truck, depot)"] 0

/-- Letter case, the white space around a name and one space behind a comma do not matter. -/
theorem parkingLot_finds : SingleSpaced " at(TRUCK,depot)" ∧
    (∀ f atom, parkingLot.valueOf? f = some (factMark ++ atom) →
      SameFact atom " at(TRUCK,depot)" → SingleSpaced atom) ∧
    parkingLot.findFact? " at(TRUCK,depot)" = some ⟨0, 2⟩ ∧
    parkingLot.IsFirstValue
      (fun value => ∃ atom, value = factMark ++ atom ∧ SameFact atom " at(TRUCK,depot)")
      ⟨0, 2⟩ := by
  have hname : SingleSpaced " at(TRUCK,depot)" := by decide +kernel
  have hvalues : ∀ f atom, parkingLot.valueOf? f = some (factMark ++ atom) →
      SameFact atom " at(TRUCK,depot)" → SingleSpaced atom := by
    have hall : ∀ v ∈ parkingLot.vars, ∀ value ∈ v.values,
        let atom := String.ofList (value.toList.drop factMark.length)
        SameFact atom " at(TRUCK,depot)" → SingleSpaced atom := by decide +kernel
    intro f atom hvalue
    obtain ⟨v, hv, hvalue⟩ := Task.valueOf?_eq_some_iff.mp hvalue
    have hatom := hall v (List.mem_of_getElem? hv) _ (List.mem_of_getElem? hvalue)
    rwa [drop_factMark_append] at hatom
  have hfind : parkingLot.findFact? " at(TRUCK,depot)" = some ⟨0, 2⟩ := by decide +kernel
  have hfirst := (Task.findFact?_isFirst parkingLot " at(TRUCK,depot)").2 hname hvalues
  exact ⟨hname, hvalues, hfind, (hfirst.some_iff _).mp hfind⟩

/-- Two spaces behind a comma matter: the fact with such a name is not found by a name without
spaces, which means the same. -/
theorem parkingLot_misses : ¬ parkingLot.FindsFirst "at(truck,home)" fun value =>
    ∃ atom, value = factMark ++ atom ∧ SameFact atom "at(truck,home)" := by
  intro h
  have hfind : parkingLot.findFact? "at(truck,home)" = none := by decide +kernel
  apply h.none_iff.mp hfind ⟨0, 0⟩ "Atom at(truck,  home)" rfl
  exact ⟨"at(truck,  home)", rfl, by decide +kernel⟩

end PlanConstraints

import PlanConstraints.Proofs.Task.Forms
import PlanConstraints.Proofs.Task.Reading
import PlanConstraints.Proofs.Task.RoundTrip

set_option autoImplicit false

/-!
# Lines of numbers

What is found in a line of numbers: its words are spellings of what stands in the effect or the fact
that is read from it, and one word in the place of another changes the number at that place
(`integers?_set`).
-/

namespace PlanConstraints

namespace TaskFile

open Reader

theorem spells_of_integers? {text : String} {ns : List Int} (h : integers? text = some ns) :
    List.Forall₂ (fun n word => Text.Spells word n) ns (Text.wordsOf text) := by
  unfold integers? at h
  generalize Text.wordsOf text = words at h
  induction words generalizing ns with
  | nil =>
    cases h
    exact .nil
  | cons word words ih =>
    rw [List.mapM_cons] at h
    obtain ⟨n, hn, hrest⟩ := Option.bind_eq_some_iff.mp h
    obtain ⟨ns', hns', heq⟩ := Option.bind_eq_some_iff.mp hrest
    cases heq
    exact .cons (Text.spells_of_integer? hn) (ih hns')

theorem spelledBy_of_factOf? {text : String} {f : Fact} (h : factOf? text = some f) :
    f.form.SpelledBy text := by
  unfold factOf? at h
  split at h
  · next hwords =>
    split at h
    · next hvar hvalue =>
      cases h
      refine .numbers ?_
      rw [hwords]
      exact .cons (.int (Text.spells_of_natural? hvar))
        (.cons (.int (Text.spells_of_natural? hvalue)) .nil)
    · cases h
  · cases h

namespace EffectNumbers

/-- The numbers behind the conditions, as what they stand for. -/
def change (e : EffectNumbers) : List Numeral :=
  [.int e.var, .optional (optionalOf e.pre), .int e.post]

/-- The numbers of an effect, as what they stand for. -/
def numerals (e : EffectNumbers) : List Numeral :=
  e.conditions.flatMap (fun pair => [.int pair.1, .int pair.2]) ++ e.change

theorem toList_of_ofList? {n : Nat} {ns : List Int} {e : EffectNumbers}
    (h : ofList? n ns = some e) : e.conditions.length = n ∧ e.toList = ns := by
  fun_induction ofList? n ns generalizing e with
  | case1 var pre post =>
    cases h
    exact ⟨rfl, rfl⟩
  | case2 n var value rest ih =>
    obtain ⟨e', he', rfl⟩ := Option.map_eq_some_iff.mp h
    obtain ⟨hlength, hlist⟩ := ih he'
    refine ⟨congrArg (· + 1) hlength, ?_⟩
    rw [← hlist]
    rfl
  | case3 => cases h

theorem spelledBy_of_ofList? {n : Nat} {ns : List Int} {e : EffectNumbers}
    (h : ofList? n ns = some e) {words : List String}
    (hwords : List.Forall₂ (fun n word => Text.Spells word n) ns words) :
    List.Forall₂ (fun (n : Numeral) word => n.SpelledBy word) e.numerals words := by
  fun_induction ofList? n ns generalizing e words with
  | case1 var pre post =>
    cases h
    obtain _ | ⟨hvar, _ | ⟨hpre, _ | ⟨hpost, _ | _⟩⟩⟩ := hwords
    exact .cons (.int hvar) (.cons (Numeral.spelledBy_optionalOf hpre) (.cons (.int hpost) .nil))
  | case2 n var value rest ih =>
    obtain ⟨e', he', rfl⟩ := Option.map_eq_some_iff.mp h
    obtain _ | ⟨hvar, _ | ⟨hvalue, hrest⟩⟩ := hwords
    exact .cons (.int hvar) (.cons (.int hvalue) (ih he' hrest))
  | case3 => cases h

theorem conditions_of_bare? {text : String} {e : EffectNumbers} (h : bare? text = some e) :
    e.conditions = [] := by
  unfold bare? at h
  split at h
  · exact List.length_eq_zero_iff.mp (toList_of_ofList? h).1
  · cases h

theorem spelledBy_of_bare? {text : String} {e : EffectNumbers} (h : bare? text = some e) :
    (LineForm.numbers e.change).SpelledBy text := by
  have hnumerals : e.numerals = e.change := by
    rw [numerals, conditions_of_bare? h]
    rfl
  unfold bare? at h
  split at h
  · next ns hns =>
    exact .numbers (hnumerals ▸ spelledBy_of_ofList? h (spells_of_integers? hns))
  · cases h

/-- The number in front of the others is the number of conditions. -/
theorem spelledBy_of_counted? {text : String} {e : EffectNumbers} (h : counted? text = some e) :
    (LineForm.numbers (.int e.conditions.length :: e.numerals)).SpelledBy text := by
  unfold counted? at h
  split at h
  · next word words n ns hwords hns =>
    have hspells := spells_of_integers? hns
    rw [hwords] at hspells
    obtain _ | ⟨-, hrest⟩ := hspells
    split at h
    · next count hcount =>
      have hlength := (toList_of_ofList? h).1
      refine .numbers ?_
      rw [hwords, hlength]
      exact .cons (.int (Text.spells_of_natural? hcount)) (spelledBy_of_ofList? h hrest)
    · cases h
  · cases h

end EffectNumbers

/-! ## One word for another -/

theorem mapM_set {α β : Type} {f : α → Option β} {as : List α} {bs : List β}
    (h : as.mapM f = some bs) {place : Nat} (hplace : place < as.length) (a : α) :
    (as.set place a).mapM f = (f a).map (bs.set place) := by
  induction as generalizing bs place with
  | nil => cases hplace
  | cons first as ih =>
    rw [List.mapM_cons] at h
    obtain ⟨b, hb, hrest⟩ := Option.bind_eq_some_iff.mp h
    obtain ⟨bs', hbs, heq⟩ := Option.bind_eq_some_iff.mp hrest
    cases heq
    cases place with
    | zero =>
      rw [List.set_cons_zero, List.mapM_cons, hbs]
      cases f a <;> rfl
    | succ place =>
      rw [List.set_cons_succ, List.mapM_cons, hb, ih hbs (Nat.lt_of_succ_lt_succ hplace)]
      cases f a <;> rfl

theorem integers?_set {text found word : String} {ns : List Int} {place : Nat}
    (h : integers? text = some ns) (hplace : place < ns.length)
    (hfound : Text.wordsOf found = (Text.wordsOf text).set place word) :
    integers? found = (Text.integer? 64 word).map (ns.set place) := by
  have hlength := (spells_of_integers? h).length_eq
  rw [integers?, hfound]
  exact mapM_set h (hlength ▸ hplace) word

namespace EffectNumbers

theorem length_toList (e : EffectNumbers) : e.toList.length = 2 * e.conditions.length + 3 := by
  obtain ⟨conditions, var, pre, post⟩ := e
  simp [toList, Nat.mul_comm]

/-- Another number behind the number of conditions: the effect is read with that number, unless it
does not have the width of the field. -/
theorem counted?_set {text found word : String} {e : EffectNumbers} {place : Nat}
    (h : counted? text = some e) (hplace : place < e.toList.length)
    (hfound : Text.wordsOf found = (Text.wordsOf text).set (place + 1) word) :
    counted? found = (Text.integer? 64 word).bind fun m =>
      ofList? e.conditions.length (e.toList.set place m) := by
  unfold counted? at h
  split at h
  · next first words n ns hwords hns =>
    split at h
    · next count hcount =>
      obtain ⟨rfl, rfl⟩ := toList_of_ofList? h
      have hset := integers?_set hns (Nat.succ_lt_succ hplace) hfound
      rw [counted?, hfound, hset, hwords]
      cases Text.integer? 64 word with
      | none => rfl
      | some m => simp [hcount]
    · cases h
  · cases h

/-- Three numbers are always a change. -/
theorem bare?_set {text found word : String} {e : EffectNumbers} {place : Nat}
    (h : bare? text = some e) (hplace : place < 3)
    (hfound : Text.wordsOf found = (Text.wordsOf text).set place word) :
    bare? found = none ∧ Text.integer? 64 word = none ∨
      ∃ n e', Text.integer? 64 word = some n ∧ bare? found = some e' ∧
        e'.toList = e.toList.set place n := by
  have hthree : e.toList.length = 3 := by
    rw [length_toList, conditions_of_bare? h]
    rfl
  unfold bare? at h
  split at h
  · next ns hns =>
    obtain ⟨-, rfl⟩ := toList_of_ofList? h
    have hset := integers?_set hns (hthree.symm ▸ hplace) hfound
    cases hn : Text.integer? 64 word with
    | none =>
      rw [hn] at hset
      exact .inl ⟨by rw [bare?, hset]; rfl, rfl⟩
    | some n =>
      rw [hn] at hset
      obtain ⟨var, pre, post, hlist⟩ := List.length_eq_three.mp
        (List.length_set.trans hthree : (e.toList.set place n).length = 3)
      refine .inr ⟨n, ⟨[], var, pre, post⟩, rfl, ?_, hlist.symm⟩
      rw [bare?, hset, Option.map_some, hlist]
      rfl
  · cases h

end EffectNumbers

end TaskFile

end PlanConstraints

import Mathlib.Data.List.Induction
import PlanConstraints.ActionSet.Basic

set_option autoImplicit false

/-!
# The names of instances

An instance of an action set is named by its arguments, each behind an underscore.  Read from its
end, such a name gives back the arguments as long as these have no underscores themselves
(`instanceName_inj`); the name of the set may have some.

Instances with the same arguments are the same, so that of the instances of some sets the one that
is found by its name is that of the first set of the name (`find?_instances`).
-/

namespace PlanConstraints

/-- No argument has an underscore. -/
def ArePlain (args : List Symbol) : Prop := ∀ arg ∈ args, '_' ∉ arg.name.toList

instance (args : List Symbol) : Decidable (ArePlain args) :=
  inferInstanceAs (Decidable (∀ arg ∈ args, '_' ∉ arg.name.toList))

namespace SetBlock

/-! ## Names -/

@[simp] theorem instanceName_nil (name : String) : instanceName name [] = name := rfl

theorem instanceName_concat (name : String) (args : List Symbol) (arg : Symbol) :
    instanceName name (args ++ [arg]) = instanceName name args ++ "_" ++ arg.name := by
  rw [instanceName, instanceName, List.foldl_append]
  rfl

/-- The arguments stand behind the name. -/
theorem instanceName_eq_append (name : String) (args : List Symbol) :
    instanceName name args = name ++ instanceName "" args := by
  induction args using List.reverseRecOn with
  | nil => simp
  | append_singleton args arg ih =>
    rw [instanceName_concat, instanceName_concat, ih, String.append_assoc, String.append_assoc,
      String.append_assoc]

/-- A name depends on the names of the arguments only. -/
theorem instanceName_congr {args args' : List Symbol}
    (h : args.map Symbol.name = args'.map Symbol.name) (name : String) :
    instanceName name args = instanceName name args' := by
  have hfold : ∀ l : List Symbol, instanceName name l =
      (l.map Symbol.name).foldl (fun name arg => name ++ "_" ++ arg) name := by
    intro l
    rw [instanceName, List.foldl_map]
  rw [hfold, hfold, h]

/-- Two lists are cut at the last place of an element in the same way. -/
theorem append_cons_inj_of_notMem {α : Type} {c : α} {xs ys as bs : List α} (ha : c ∉ as)
    (hb : c ∉ bs) (h : xs ++ c :: as = ys ++ c :: bs) : xs = ys ∧ as = bs := by
  rcases List.append_eq_append_iff.mp h with ⟨zs, hys, hzs⟩ | ⟨zs, hxs, hzs⟩
  · cases zs with
    | nil => exact ⟨by simpa using hys.symm, (List.cons.inj hzs).2⟩
    | cons z zs =>
      have hmem : c ∈ as := by rw [(List.cons.inj hzs).2]; simp
      exact absurd hmem ha
  · cases zs with
    | nil => exact ⟨by simpa using hxs, (List.cons.inj hzs).2.symm⟩
    | cons z zs =>
      have hmem : c ∈ bs := by rw [(List.cons.inj hzs).2]; simp
      exact absurd hmem hb

/-- A name with arguments that have no underscores tells the set and the arguments. -/
theorem instanceName_inj {name name' : String} {args args' : List Symbol}
    (hlen : args.length = args'.length) (hargs : ArePlain args) (hargs' : ArePlain args')
    (h : instanceName name args = instanceName name' args') :
    name = name' ∧ args.map Symbol.name = args'.map Symbol.name := by
  induction args using List.reverseRecOn generalizing args' with
  | nil =>
    have hnil : args' = [] := List.length_eq_zero_iff.mp hlen.symm
    subst hnil
    exact ⟨h, rfl⟩
  | append_singleton args arg ih =>
    cases args' using List.reverseRecOn with
    | nil => simp at hlen
    | append_singleton more arg' =>
      rw [instanceName_concat, instanceName_concat] at h
      have hchars := congrArg String.toList h
      simp only [String.toList_append, List.append_assoc] at hchars
      obtain ⟨hfront, hlast⟩ := append_cons_inj_of_notMem (hargs arg (by simp))
        (hargs' arg' (by simp)) hchars
      obtain ⟨hname, hmore⟩ := ih (by simpa using hlen)
        (fun a ha => hargs a (List.mem_append_left _ ha))
        (fun a ha => hargs' a (List.mem_append_left _ ha)) (String.toList_inj.mp hfront)
      refine ⟨hname, ?_⟩
      rw [List.map_append, List.map_append, hmore, List.map_singleton, List.map_singleton,
        String.toList_inj.mp hlast]

/-! ## Instances -/

@[simp] theorem name_instantiate (b : SetBlock) (params args : List Symbol) :
    (b.instantiate params args).name.name = instanceName b.name.name args := rfl

theorem argumentFor_congr {args args' : List Symbol}
    (h : args.map Symbol.name = args'.map Symbol.name) (params : List Symbol) (word : Symbol) :
    argumentFor params args word = argumentFor params args' word := by
  unfold argumentFor
  induction params generalizing args args' with
  | nil => rfl
  | cons p params ih =>
    cases args with
    | nil =>
      have hnil : args' = [] := by simpa using h.symm
      rw [hnil]
    | cons a args =>
      cases args' with
      | nil => simp at h
      | cons a' args' =>
        simp only [List.map_cons, List.cons.injEq] at h
        simp only [List.zip_cons_cons, List.find?_cons]
        by_cases hp : p.name = word.name
        · simp only [hp, decide_true, h.1]
        · simp only [hp, decide_false]
          exact ih h.2

/-- An instance depends on the names of the arguments only. -/
theorem instantiate_congr {args args' : List Symbol}
    (h : args.map Symbol.name = args'.map Symbol.name) (b : SetBlock) (params : List Symbol) :
    b.instantiate params args = b.instantiate params args' := by
  have hwords : argumentFor params args = argumentFor params args' :=
    funext (argumentFor_congr h params)
  rw [instantiate, instantiate, instanceName_congr h, hwords]

/-- All instances of some sets, instance by instance. -/
def instances (blocks : List SetBlock) (params : List Symbol) (argss : List (List Symbol)) :
    List SetBlock :=
  argss.flatMap fun args => blocks.map fun b => b.instantiate params args

/-- Of the instances with the same arguments, the first one of a name is that of the first set of
the name. -/
theorem find?_map_instantiate (blocks : List SetBlock) (params args : List Symbol)
    (name : String) :
    (blocks.map fun b => b.instantiate params args).find?
        (fun b => b.name.name = instanceName name args) =
      (blocks.find? fun b => b.name.name = name).map fun b => b.instantiate params args := by
  have hsame : ∀ b : SetBlock, (b.instantiate params args).name.name = instanceName name args ↔
      b.name.name = name := by
    intro b
    constructor
    · intro h
      rw [name_instantiate, instanceName_eq_append, instanceName_eq_append name] at h
      have hchars := congrArg String.toList h
      rw [String.toList_append, String.toList_append] at hchars
      exact String.toList_inj.mp (List.append_cancel_right hchars)
    · intro h
      rw [name_instantiate, h]
  rw [List.find?_map]
  simp only [Function.comp_def, hsame]

/-- If no argument has an underscore, the instance that is found by its name is that of the first
set of the name, with its own arguments. -/
theorem find?_instances {blocks : List SetBlock} {params : List Symbol}
    {argss : List (List Symbol)} (hlen : ∀ args ∈ argss, args.length = params.length)
    (hplain : ∀ args ∈ argss, ArePlain args) {args : List Symbol} (hargs : args ∈ argss)
    {name : String} {b : SetBlock} (hb : (blocks.find? fun b => b.name.name = name) = some b) :
    (instances blocks params argss).find? (fun b => b.name.name = instanceName name args) =
      some (b.instantiate params args) := by
  rw [instances, List.find?_flatMap]
  induction argss with
  | nil => cases hargs
  | cons first argss ih =>
    rw [List.findSome?_cons]
    by_cases hsame : first.map Symbol.name = args.map Symbol.name
    · rw [← instanceName_congr hsame, find?_map_instantiate, hb, Option.map_some,
        instantiate_congr hsame]
    · have hnone : (blocks.map fun b => b.instantiate params first).find?
          (fun b => b.name.name = instanceName name args) = none := by
        rw [List.find?_eq_none]
        intro c hc heq
        obtain ⟨c, -, rfl⟩ := List.mem_map.mp hc
        have hlength : first.length = args.length :=
          (hlen first List.mem_cons_self).trans (hlen args hargs).symm
        exact hsame (instanceName_inj hlength (hplain first List.mem_cons_self)
          (hplain args hargs) (of_decide_eq_true heq)).2
      rw [hnone]
      have htail : args ∈ argss := by
        rcases List.mem_cons.mp hargs with rfl | htail
        · exact absurd rfl hsame
        · exact htail
      exact ih (fun a ha => hlen a (List.mem_cons_of_mem _ ha))
        (fun a ha => hplain a (List.mem_cons_of_mem _ ha)) htail

end SetBlock

/-! ## Collections -/

namespace ActionSets

/-- A set that is added is found unless one of its name was there. -/
theorem get?_add (c : ActionSets) (s : ActionSet) (name : String) :
    (c.add s).1.get? name = (c.get? name).or (if s.name = name then some s else none) := by
  unfold add contains
  split
  · next hfound =>
    by_cases hname : s.name = name
    · rw [← hname]
      obtain ⟨s', hs'⟩ := Option.isSome_iff_exists.mp hfound
      rw [hs', Option.some_or]
    · rw [if_neg hname, Option.or_none]
  · rw [get?, get?, List.find?_append]
    by_cases hname : s.name = name <;> simp [hname]

theorem sets_prefix_add (c : ActionSets) (s : ActionSet) : c.sets <+: (c.add s).1.sets := by
  unfold add
  split
  · exact List.prefix_refl _
  · exact List.prefix_append _ _

/-- Sets that are found stay. -/
theorem get?_of_prefix {c c' : ActionSets} (h : c.sets <+: c'.sets) {name : String}
    {s : ActionSet} (hs : c.get? name = some s) : c'.get? name = some s := by
  obtain ⟨more, hmore⟩ := h
  unfold get? at hs ⊢
  rw [← hmore, List.find?_append, hs, Option.some_or]

end ActionSets

end PlanConstraints

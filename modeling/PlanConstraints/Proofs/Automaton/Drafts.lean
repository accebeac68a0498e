import Mathlib.Data.List.Nodup
import PlanConstraints.Automaton.NeverClaim

set_option autoImplicit false

/-!
# The states of a draft

What has been read of a never-claim is told by the names that it mentions, in order, and by its
edges.  Mentioning a name and adding a transition change the states of a draft (`statesOf`) as these
say.
-/

namespace PlanConstraints

namespace NeverClaim

/-- A transition between states that are named. -/
structure Edge where
  source : String
  target : String
  guard : Formula String
  deriving DecidableEq

/-- The transition between the places of the names. -/
def Edge.transition (names : List String) (e : Edge) : Transition String :=
  ⟨names.idxOf e.source, names.idxOf e.target, e.guard⟩

/-- The state of a name at its place, with the edges that leave it. -/
def stateOf (names : List String) (edges : List Edge) (i : Nat) (name : String) : State String where
  name := name
  id := i
  isInitial := "init".toList.isSuffixOf name.toList
  isAccepting := "accept".toList.isPrefixOf name.toList
  transitions := (edges.filter fun e => e.source = name).map (Edge.transition names)

/-- The states of names, numbered in their order. -/
def statesOf (names : List String) (edges : List Edge) : List (State String) :=
  names.mapIdx (stateOf names edges)

/-- All edges are between the names. -/
def Joins (names : List String) (edges : List Edge) : Prop :=
  ∀ e ∈ edges, e.source ∈ names ∧ e.target ∈ names

/-- A name behind others, unless it is one of them. -/
def addName (names : List String) (name : String) : List String :=
  if name ∈ names then names else names ++ [name]

variable {names : List String} {edges : List Edge} {name : String}

theorem mem_addName : name ∈ addName names name := by
  unfold addName
  split
  · assumption
  · simp

theorem prefix_addName (names : List String) (name : String) : names <+: addName names name := by
  unfold addName
  split
  · exact List.prefix_refl _
  · exact List.prefix_append _ _

theorem nodup_addName (h : names.Nodup) (name : String) : (addName names name).Nodup := by
  unfold addName
  split
  · exact h
  · next hnew =>
    refine List.nodup_append.mpr ⟨h, List.nodup_singleton name, fun a ha b hb heq => ?_⟩
    rw [List.mem_singleton.mp hb] at heq
    exact hnew (heq ▸ ha)

theorem Joins.mono (h : Joins names edges) {names' : List String} (hsub : names ⊆ names') :
    Joins names' edges := fun e he => ⟨hsub (h e he).1, hsub (h e he).2⟩

/-- Names keep their places. -/
theorem transition_of_prefix {names' : List String} (hfront : names <+: names') {e : Edge}
    (he : e.source ∈ names ∧ e.target ∈ names) : e.transition names' = e.transition names := by
  obtain ⟨more, rfl⟩ := hfront
  rw [Edge.transition, Edge.transition, List.idxOf_append_of_mem he.1,
    List.idxOf_append_of_mem he.2]

theorem stateOf_of_prefix (h : Joins names edges) {names' : List String}
    (hfront : names <+: names') : stateOf names' edges = stateOf names edges := by
  funext i name
  have htransitions : (edges.filter fun e => e.source = name).map (Edge.transition names') =
      (edges.filter fun e => e.source = name).map (Edge.transition names) :=
    List.map_congr_left fun e he => transition_of_prefix hfront (h e (List.mem_filter.mp he).1)
  rw [stateOf, stateOf, htransitions]

@[simp] theorem length_statesOf (names : List String) (edges : List Edge) :
    (statesOf names edges).length = names.length := List.length_mapIdx

theorem getElem?_statesOf (names : List String) (edges : List Edge) (i : Nat) :
    (statesOf names edges)[i]? = names[i]?.map (stateOf names edges i) := List.getElem?_mapIdx

@[simp] theorem map_name_statesOf (names : List String) (edges : List Edge) :
    (statesOf names edges).map State.name = names := by
  refine List.ext_getElem? fun i => ?_
  rw [List.getElem?_map, getElem?_statesOf]
  cases names[i]? <;> rfl

/-- The first state of a name is at the place of the name. -/
theorem find?_statesOf (h : name ∈ names) :
    ((statesOf names edges).find? fun s => s.name = name).map State.id =
      some (names.idxOf name) := by
  have hlt := List.idxOf_lt_length_of_mem h
  have hget : (statesOf names edges)[names.idxOf name]? =
      some (stateOf names edges (names.idxOf name) name) := by
    rw [getElem?_statesOf, List.getElem?_idxOf h]
    rfl
  have hfind : (statesOf names edges).find? (fun s => s.name = name) =
      some (stateOf names edges (names.idxOf name) name) := by
    rw [List.find?_eq_some_iff_getElem]
    refine ⟨by simp [stateOf], names.idxOf name, by simpa using hlt, ?_, fun j hj => ?_⟩
    · exact (List.getElem?_eq_some_iff.mp hget).2
    · have hj' : j < names.length := Nat.lt_trans hj hlt
      have hother : names[j] ≠ name := by
        have := List.not_of_lt_findIdx hj
        simpa using this
      simpa [statesOf, stateOf] using hother
  rw [hfind]
  rfl

/-- Mentioning a name puts it behind the others, unless it is one of them, and gives its place. -/
theorem mention_statesOf (h : Joins names edges) (current : Option Nat) (name : String) :
    Draft.mention ⟨statesOf names edges, current⟩ name =
      (⟨statesOf (addName names name) edges, current⟩, (addName names name).idxOf name) := by
  unfold Draft.mention addName
  by_cases hmem : name ∈ names
  · have hid : ((statesOf names edges).find? fun s => s.name = name).map State.id =
        some (names.idxOf name) := find?_statesOf hmem
    rw [if_pos hmem]
    split
    · next s hs =>
      rw [hs, Option.map_some, Option.some.injEq] at hid
      rw [hid]
    · next hnone =>
      rw [hnone] at hid
      cases hid
  · rw [if_neg hmem]
    split
    · next s hs =>
      have hname := List.mem_map_of_mem (f := State.name) (List.mem_of_find?_eq_some hs)
      have hsname : s.name = name := by simpa using List.find?_some hs
      rw [map_name_statesOf, hsname] at hname
      exact absurd hname hmem
    · have hnew : stateOf (names ++ [name]) edges names.length name =
          ⟨name, names.length, "init".toList.isSuffixOf name.toList,
            "accept".toList.isPrefixOf name.toList, []⟩ := by
        have hnone : edges.filter (fun e => e.source = name) = [] :=
          List.filter_eq_nil_iff.mpr fun e he heq =>
            hmem (of_decide_eq_true heq ▸ (h e he).1)
        rw [stateOf, hnone]
        rfl
      have hplace : (names ++ [name]).idxOf name = names.length := by
        rw [List.idxOf_append_of_notMem hmem]
        simp
      rw [hplace, length_statesOf, statesOf, statesOf, List.mapIdx_concat, hnew,
        stateOf_of_prefix h (List.prefix_append names [name])]

/-- A transition becomes one of the edges. -/
theorem addTransition_statesOf (hnodup : names.Nodup) (current : Option Nat) {e : Edge}
    (hsource : e.source ∈ names) :
    Draft.addTransition ⟨statesOf names edges, current⟩ (e.transition names) =
      ⟨statesOf names (edges ++ [e]), current⟩ := by
  unfold Draft.addTransition
  congr 1
  refine List.ext_getElem? fun i => ?_
  rw [List.getElem?_map, getElem?_statesOf, getElem?_statesOf]
  cases hname : names[i]? with
  | none => rfl
  | some name =>
    -- The place of the source is that of its name only.
    have hplace : i = names.idxOf e.source ↔ e.source = name := by
      obtain ⟨hi, hget⟩ := List.getElem?_eq_some_iff.mp hname
      constructor
      · intro heq
        have hsame := List.getElem?_idxOf hsource
        rw [← heq, hname] at hsame
        exact (Option.some.inj hsame).symm
      · intro heq
        rw [heq, ← hget, hnodup.idxOf_getElem i hi]
    have hlast : [e].filter (fun e => e.source = name) = if e.source = name then [e] else [] := by
      by_cases h : e.source = name <;> simp [h]
    simp only [Option.map_some, stateOf, Edge.transition, List.filter_append, List.map_append,
      hlast, hplace]
    by_cases h : e.source = name <;> simp [h, Edge.transition]

end NeverClaim

end PlanConstraints

import Mathlib.Data.List.Nodup
import PlanConstraints.Proofs.Temporal.StandardForm

set_option autoImplicit false

/-!
# Auxiliary variables mirror their facts

An auxiliary variable starts with the truth value of its fact, and every operator does to it what it
does to the variable of the fact, effect by effect and under the same conditions
(`Operator.Mirrors`).  So it tells in every state that operators lead to whether the fact is true
(`Task.Mirrors.runAt?`).

All automata share the auxiliary variables.  Whichever literal asked for one first, in the end the
condition of every literal is the one that the whole table of them gives (`Tracked.condition?`).
-/

namespace PlanConstraints

/-! ## Mirrors -/

/-- The effects on the mirror follow those on the variable of the fact. -/
def Operator.Mirrors (op : Operator) (f : Fact) (mirror : VarId) : Prop :=
  op.effectsOn mirror = trackingEffects f mirror op

/-- The variable mirrors the fact of an older one: at first it tells whether the fact is true, and
it follows the fact through every operator. -/
structure Task.Mirrors (t : Task) (f : Fact) (mirror : VarId) : Prop where
  lt : f.var < mirror
  init : t.init[mirror]? = some (f.holds t.init).toNat
  operators : ∀ op ∈ t.operators, op.Mirrors f mirror

namespace Operator

variable {op : Operator} {f : Fact} {mirror : VarId}

/-- Effects on other variables do not matter. -/
theorem Mirrors.extend (h : op.Mirrors f mirror) (fs : List Fact) {es : List Effect}
    (hes : ∀ e ∈ es, e.var ≠ f.var ∧ e.var ≠ mirror) : (op.extend fs es).Mirrors f mirror := by
  have hnone : (es.filter fun e => e.var == mirror) = [] := by
    rw [List.filter_eq_nil_iff]
    intro e he heq
    exact (hes e he).2 (beq_iff_eq.mp heq)
  rw [Mirrors, effectsOn_extend, hnone, List.append_nil, h,
    Temporal.trackingEffects_extend fun e he => (hes e he).1]

/-- An operator with effects on neither variable. -/
theorem mirrors_of_apart (h : ∀ e ∈ op.effects, e.var ≠ f.var ∧ e.var ≠ mirror) :
    op.Mirrors f mirror := by
  have hnothing : (ofEffects op.name [] op.cost).Mirrors f mirror := rfl
  rw [op.eq_extend]
  exact hnothing.extend op.prevail h

/-- The effects that follow a fact make a new variable its mirror. -/
theorem mirrors_extend_tracking (hold : ∀ e ∈ op.effects, e.var ≠ mirror) (hf : f.var ≠ mirror) :
    (op.extend [] (trackingEffects f mirror op)).Mirrors f mirror := by
  have hvars : ∀ e ∈ trackingEffects f mirror op, e.var = mirror :=
    List.forall_mem_map.mpr fun _ _ => rfl
  have hnone : op.effectsOn mirror = [] := by
    rw [effectsOn, List.filter_eq_nil_iff]
    intro e he heq
    exact hold e he (beq_iff_eq.mp heq)
  have hall : ((trackingEffects f mirror op).filter fun e => e.var == mirror) =
      trackingEffects f mirror op :=
    List.filter_eq_self.mpr fun e he => beq_iff_eq.mpr (hvars e he)
  rw [Mirrors, effectsOn_extend, hnone, hall, List.nil_append,
    Temporal.trackingEffects_extend fun e he => by rw [hvars e he]; exact hf.symm]

/-- The operator keeps the mirror in line with the fact. -/
theorem Mirrors.apply (h : op.Mirrors f mirror) {s : Assignment} (hf : f.var < s.length)
    (hs : s[mirror]? = some (f.holds s).toNat) :
    (op.apply s)[mirror]? = some (f.holds (op.apply s)).toNat := by
  have hvalue : s[f.var]? = some s[f.var] := List.getElem?_eq_getElem hf
  have hbefore : f.holds s = (s[f.var] == f.value) := by simp [Fact.holds, hvalue]
  have hafter : f.holds (op.apply s) =
      (Effect.overwrite s s[f.var] (op.effectsOn f.var) == f.value) := by
    simp [Fact.holds, getElem?_apply, hvalue]
  rw [getElem?_apply, hs, Option.map_some, h, hbefore, hafter]
  exact congrArg some (Temporal.overwrite_tracking s f mirror s[f.var] (op.effectsOn f.var))

end Operator

namespace Task

variable {t t' : Task} {f : Fact} {mirror : VarId}

/-- In every state that operators lead to, the mirror tells whether the fact is true. -/
theorem Mirrors.runAt? (h : t.Mirrors f mirror) {numbers : List Nat} {s : Assignment}
    (hrun : t.runAt? numbers = some s) : s[mirror]? = some (f.holds s).toNat := by
  induction numbers using List.reverseRecOn generalizing s with
  | nil =>
    cases hrun
    exact h.init
  | append_singleton numbers i ih =>
    obtain ⟨s', op, hs', hop, -, rfl⟩ := runAt?_concat_eq_some_iff.mp hrun
    have hmirror := ih hs'
    have hlt : mirror < s'.length := (List.getElem?_eq_some_iff.mp hmirror).1
    exact (h.operators op (List.mem_of_getElem? hop)).apply (h.lt.trans hlt) hmirror

/-- Further variables do not matter, and neither do operators that keep to the mirror. -/
theorem Mirrors.of_prefix (h : t.Mirrors f mirror) (hinit : t.init <+: t'.init)
    (hops : ∀ op ∈ t'.operators, op.Mirrors f mirror) : t'.Mirrors f mirror where
  lt := h.lt
  init := by
    obtain ⟨more, hmore⟩ := hinit
    have hmirror : mirror < t.init.length := (List.getElem?_eq_some_iff.mp h.init).1
    rw [← hmore, List.getElem?_append_left hmirror, h.init,
      Fact.holds_append (h.lt.trans hmirror)]
  operators := hops

/-! ## Tasks with more variables -/

/-- The second task is the first one with additions, but without more operators.  Every variable has
an initial value, and a new variable with facts among its values has two values. -/
structure Enlarges (t t' : Task) : Prop where
  appends : AppendsTo id t t'
  length_operators : t'.operators.length = t.operators.length
  length_init : t'.init.length = t'.vars.length
  values : ∀ var v, t.vars.length ≤ var → t'.vars[var]? = some v →
    v.values.length = 2 ∨ ∀ value ∈ v.values, factOfValue? value = none

namespace Enlarges

theorem addStateVariable (h : t.Enlarges t') {values : List String}
    (hvalues : values.length = 2 ∨ ∀ value ∈ values, factOfValue? value = none) (init : Nat) :
    t.Enlarges (t'.addStateVariable values init) where
  appends := h.appends.addStateVariable values init
  length_operators := h.length_operators
  length_init := by simp [h.length_init]
  values := fun var v hvar hv => by
    rcases getElem?_concat_eq_some_iff.mp hv with hv | ⟨-, rfl⟩
    · exact h.values var v hvar hv
    · exact hvalues

theorem addGoal (h : t.Enlarges t') (f : Fact) : t.Enlarges (t'.addGoal f) where
  appends := h.appends.addGoal f
  length_operators := h.length_operators
  length_init := h.length_init
  values := h.values

/-- A fact of a variable with more or less than two values is one of the first task. -/
theorem inDomain (h : t.Enlarges t') {name : String} {v : Variable}
    (hf : t'.findFact? name = some f) (hv : t'.vars[f.var]? = some v)
    (hsize : v.values.length ≠ 2) : t.InDomain f := by
  obtain ⟨value, hvalue, hname⟩ := factOfValue?_of_findFact? hf
  rw [valueOf?, hv, Option.bind_some] at hvalue
  have hlt : f.var < t.vars.length := by
    by_contra hge
    rcases h.values f.var v (Nat.le_of_not_lt hge) hv with htwo | hplain
    · exact hsize htwo
    · rw [hplain value (List.mem_of_getElem? hvalue)] at hname
      cases hname
  obtain ⟨more, hmore⟩ := h.appends.isPrefix
  rw [← hmore, List.getElem?_append_left hlt] at hv
  exact ⟨v, hv, (List.getElem?_eq_some_iff.mp hvalue).1⟩

end Enlarges

end Task

/-! ## The table of auxiliary variables -/

namespace Tracked

/-- The auxiliary variables mirror facts of the task, every fact has its own and only one. -/
structure Faithful (t : Task) (m : Tracked) : Prop where
  enlarges : t.Enlarges m.task
  facts : (m.trackers.map Prod.fst).Nodup
  vars : (m.trackers.map Prod.snd).Nodup
  mirrors : ∀ p ∈ m.trackers, t.InDomain p.1 ∧ t.IsNew m.task p.2 ∧ m.task.Mirrors p.1 p.2

variable {t : Task} {m m' m'' : Tracked} {f : Fact}

theorem enlarges_addTracker (h : t.Enlarges m.task) (f : Fact) (atom : String) :
    t.Enlarges (m.addTracker f atom).task := by
  have htwo : ["false_aux_" ++ atom, "true_aux_" ++ atom].length = 2 := rfl
  have hadded := h.addStateVariable (.inl htwo) (if f.holds m.task.init then 1 else 0)
  exact ⟨h.appends.addTracker f atom, (List.length_map _).trans h.length_operators,
    hadded.length_init, hadded.values⟩

/-- The variable that is added mirrors its fact. -/
theorem mirrors_addTracker (h : t.Enlarges m.task) (hc : t.Consistent) (hf : t.InDomain f)
    (atom : String) : (m.addTracker f atom).task.Mirrors f m.task.nextVar := by
  have hlt : f.var < m.task.nextVar := Nat.lt_of_lt_of_le hf.var_lt h.appends.length_le
  have hnext : m.task.nextVar = m.task.init.length := h.length_init.symm
  refine ⟨hlt, ?_, List.forall_mem_map.mpr fun op hop => ?_⟩
  · have hholds : f.holds (m.addTracker f atom).task.init = f.holds m.task.init :=
      Fact.holds_append (hnext ▸ hlt) _
    rw [hholds, hnext]
    cases hf : f.holds m.task.init <;> simp [Tracked.addTracker, hf]
  · exact Operator.mirrors_extend_tracking
      (fun e he => Nat.ne_of_lt (h.appends.effect_lt hc op hop e he)) (Nat.ne_of_lt hlt)

/-- The older mirrors are not affected. -/
theorem mirrors_addTracker_of_mirrors {g : Fact} {mirror : VarId} (h : m.task.Mirrors g mirror)
    (hlt : mirror < m.task.nextVar) (f : Fact) (atom : String) :
    (m.addTracker f atom).task.Mirrors g mirror := by
  refine h.of_prefix (List.prefix_append _ _) (List.forall_mem_map.mpr fun op hop => ?_)
  refine (h.operators op hop).extend [] (List.forall_mem_map.mpr fun _ _ => ?_)
  exact ⟨Nat.ne_of_gt (h.lt.trans hlt), Nat.ne_of_gt hlt⟩

/-- A variable is added for a fact that has none. -/
theorem Faithful.addTracker (h : m.Faithful t) (hc : t.Consistent) (hf : t.InDomain f)
    (hnew : f ∉ m.trackers.map Prod.fst) (atom : String) : (m.addTracker f atom).Faithful t := by
  have hlength : (m.addTracker f atom).task.vars.length = m.task.vars.length + 1 := by
    rw [vars_addTracker, List.length_append, List.length_singleton]
  have hold : ∀ p ∈ m.trackers, p.2 < m.task.nextVar := fun p hp => (h.mirrors p hp).2.1.2
  refine ⟨enlarges_addTracker h.enlarges f atom, ?_, ?_, List.forall_mem_append.mpr
    ⟨fun p hp => ?_, List.forall_mem_singleton.mpr ?_⟩⟩
  · rw [Tracked.addTracker, List.map_append, List.map_singleton, ← List.concat_eq_append]
    exact List.Nodup.concat hnew h.facts
  · rw [Tracked.addTracker, List.map_append, List.map_singleton, ← List.concat_eq_append]
    refine List.Nodup.concat (fun hmem => ?_) h.vars
    obtain ⟨p, hp, heq⟩ := List.mem_map.mp hmem
    exact Nat.ne_of_lt (hold p hp) heq
  · obtain ⟨hdomain, hisNew, hmirrors⟩ := h.mirrors p hp
    exact ⟨hdomain, hisNew.mono (by omega),
      mirrors_addTracker_of_mirrors hmirrors (hold p hp) f atom⟩
  · exact ⟨hf, ⟨h.enlarges.appends.length_le, by rw [hlength]; exact Nat.lt_succ_self _⟩,
      mirrors_addTracker h.enlarges hc hf atom⟩

/-- Tracking a fact gives the variable that the table has for it. -/
theorem Faithful.track (h : m.Faithful t) (hc : t.Consistent) (hf : t.InDomain f) (atom : String) :
    (m.track f atom).1.Faithful t ∧
      (m.track f atom).1.trackers.lookup f = some (m.track f atom).2 := by
  rcases m.track_cases f atom with ⟨var, hlookup, htrack⟩ | ⟨hnone, htrack⟩
  · rw [htrack]
    exact ⟨h, hlookup⟩
  · have hnew : f ∉ m.trackers.map Prod.fst := by
      intro hmem
      obtain ⟨p, hp, rfl⟩ := List.mem_map.mp hmem
      have hne := List.lookup_eq_none_iff.mp hnone p hp
      simp at hne
    rw [htrack]
    refine ⟨h.addTracker hc hf hnew atom, ?_⟩
    rw [Tracked.addTracker, List.lookup_append, hnone]
    simp

end Tracked

/-! ## What literals stand for -/

/-- The literal negates a fact whose variable has not two values. -/
def Task.NeedsMirror (t : Task) (usedVars : List (String × VarId)) (l : Literal Symbol)
    (f : Fact) : Prop :=
  usedVars.lookup l.atom.name = none ∧ t.findFact? l.atom.name = some f ∧ l.negated = true ∧
    t.vars[f.var]?.any (fun v => v.values.length = 2) = false

instance (t : Task) (usedVars : List (String × VarId)) (l : Literal Symbol) (f : Fact) :
    Decidable (t.NeedsMirror usedVars l f) :=
  inferInstanceAs (Decidable (usedVars.lookup l.atom.name = none ∧
    t.findFact? l.atom.name = some f ∧ l.negated = true ∧
      t.vars[f.var]?.any (fun v => v.values.length = 2) = false))

namespace Tracked

variable {t : Task} {m m' m'' : Tracked} {f : Fact}

/-- More variables, and more facts that have an auxiliary one. -/
structure Precedes (m m' : Tracked) : Prop where
  vars : m.task.vars <+: m'.task.vars
  trackers : m.trackers <+: m'.trackers

theorem Precedes.trans (h : m.Precedes m') (h' : m'.Precedes m'') : m.Precedes m'' :=
  ⟨h.vars.trans h'.vars, h.trackers.trans h'.trackers⟩

theorem Tracks.precedes (h : m.Tracks m') : m.Precedes m' :=
  ⟨h.addsNoFacts.isPrefix,
    h.induction (P := fun m' => m.trackers <+: m'.trackers) (List.prefix_refl _)
      fun _ _ _ hfront => hfront.trans (List.prefix_append _ _)⟩

/-- The condition that a literal stands for, by the auxiliary variables that there are.  A negated
fact is the only other value of its variable or, if the variable has not two values, the value 0 of
the auxiliary variable of the fact. -/
def condition? (m : Tracked) (usedVars : List (String × VarId)) (l : Literal Symbol) :
    Option Fact :=
  match usedVars.lookup l.atom.name with
  | some var => some ⟨var, if l.negated then 0 else 1⟩
  | none =>
    match m.task.findFact? l.atom.name with
    | none => none
    | some f =>
      if !l.negated then some f
      else if m.task.vars[f.var]?.any (fun v => v.values.length = 2) then
        some ⟨f.var, 1 - f.value⟩
      else (m.trackers.lookup f).map fun mirror => ⟨mirror, 0⟩

variable {usedVars : List (String × VarId)} {l : Literal Symbol} {c : Fact}

theorem Precedes.getElem?_vars (h : m.Precedes m') {var : VarId} (hvar : var < m.task.vars.length) :
    m'.task.vars[var]? = m.task.vars[var]? := by
  obtain ⟨more, hmore⟩ := h.vars
  rw [← hmore, List.getElem?_append_left hvar]

theorem Precedes.lookup (h : m.Precedes m') {mirror : VarId}
    (hmirror : m.trackers.lookup f = some mirror) : m'.trackers.lookup f = some mirror := by
  obtain ⟨more, hmore⟩ := h.trackers
  rw [← hmore, List.lookup_append, hmirror, Option.some_or]

theorem condition?_of_used {var : VarId} (hused : usedVars.lookup l.atom.name = some var) :
    m.condition? usedVars l = some ⟨var, if l.negated then 0 else 1⟩ := by
  rw [condition?, hused]

theorem condition?_of_fact (hunused : usedVars.lookup l.atom.name = none)
    (hfind : m.task.findFact? l.atom.name = some f) :
    m.condition? usedVars l =
      if !l.negated then some f
      else if m.task.vars[f.var]?.any (fun v => v.values.length = 2) then
        some ⟨f.var, 1 - f.value⟩
      else (m.trackers.lookup f).map fun mirror => ⟨mirror, 0⟩ := by
  rw [condition?, hunused, hfind]

/-- A literal that needs an auxiliary variable has the one of its fact. -/
theorem condition?_of_needsMirror (h : m.task.NeedsMirror usedVars l f) :
    m.condition? usedVars l = (m.trackers.lookup f).map fun mirror => ⟨mirror, 0⟩ := by
  obtain ⟨hunused, hfind, hnegated, hsize⟩ := h
  rw [condition?_of_fact hunused hfind, if_neg (by simp [hnegated]), if_neg (by simp [hsize])]

/-- Once a literal has a condition, this is its condition for good. -/
theorem Precedes.condition? (h : m.Precedes m') (hc : m.condition? usedVars l = some c) :
    m'.condition? usedVars l = some c := by
  cases hused : usedVars.lookup l.atom.name with
  | some var =>
    rw [condition?_of_used hused] at hc ⊢
    exact hc
  | none =>
    cases hfind : m.task.findFact? l.atom.name with
    | none =>
      rw [Tracked.condition?, hused, hfind] at hc
      cases hc
    | some f =>
      have hsame := h.getElem?_vars (Task.inDomain_of_findFact? hfind).var_lt
      rw [condition?_of_fact hused hfind] at hc
      rw [condition?_of_fact hused (Task.findFact?_of_prefix h.vars hfind), hsame]
      split at hc
      · next hplain => rwa [if_pos hplain]
      · next hnegated =>
        rw [if_neg hnegated]
        split at hc
        · next htwo => rwa [if_pos htwo]
        · next hmany =>
          obtain ⟨mirror, hmirror, rfl⟩ := Option.map_eq_some_iff.mp hc
          rw [if_neg hmany, h.lookup hmirror, Option.map_some]

/-- A literal gets the condition that it has in the table afterwards. -/
theorem Faithful.literalTest (h : m.Faithful t) (hc : t.Consistent) {s : Scope}
    (hl : s.literalTest m l = .ok (m', c)) :
    m.Tracks m' ∧ m'.Faithful t ∧ m'.condition? s.usedVars l = some c := by
  unfold Scope.literalTest at hl
  split at hl
  · next var hvar =>
    cases hl
    exact ⟨.refl, h, condition?_of_used hvar⟩
  · next hunused =>
    split at hl
    · cases hl
    · next f hfind =>
      have hcondition := condition?_of_fact hunused hfind
      split at hl
      · next hplain =>
        cases hl
        exact ⟨.refl, h, hcondition.trans (if_pos hplain)⟩
      · next hnegated =>
        obtain ⟨v, hv, -⟩ := Task.inDomain_of_findFact? hfind
        simp only [hv] at hl
        split at hl
        · next hsize =>
          cases hl
          refine ⟨.refl, h, ?_⟩
          rw [hcondition, if_neg hnegated, hv]
          exact if_pos (decide_eq_true hsize)
        · next hsize =>
          split at hl
          · cases hl
            have htracks : m.Tracks (m.track f l.atom.name).1 := .track .refl f l.atom.name
            obtain ⟨hfaithful, hlookup⟩ :=
              h.track hc (h.enlarges.inDomain hfind hv hsize) l.atom.name
            have hsame := htracks.precedes.getElem?_vars (List.getElem?_eq_some_iff.mp hv).1
            refine ⟨htracks, hfaithful, ?_⟩
            rw [condition?_of_needsMirror ⟨hunused,
              Task.findFact?_of_prefix htracks.precedes.vars hfind, by simpa using hnegated,
              by simpa [hsame, hv] using hsize⟩, hlookup, Option.map_some]
          · cases hl

/-- The conditions are those of the literals. -/
structure Tests (m : Tracked) (usedVars : List (String × VarId)) (cl : Clause Symbol)
    (tests : List Fact) : Prop where
  complete : ∀ l ∈ cl, ∃ c ∈ tests, m.condition? usedVars l = some c
  sound : ∀ c ∈ tests, ∃ l ∈ cl, m.condition? usedVars l = some c

variable {cl : Clause Symbol} {tests : List Fact}

theorem Tests.mono (h : m.Tests usedVars cl tests) (hmore : m.Precedes m') :
    m'.Tests usedVars cl tests := by
  refine ⟨fun l hl => ?_, fun c hc => ?_⟩
  · obtain ⟨c, hc, hcondition⟩ := h.complete l hl
    exact ⟨c, hc, hmore.condition? hcondition⟩
  · obtain ⟨l, hl, hcondition⟩ := h.sound c hc
    exact ⟨l, hl, hmore.condition? hcondition⟩

theorem tests_nil (m : Tracked) (usedVars : List (String × VarId)) : m.Tests usedVars [] [] :=
  ⟨List.forall_mem_nil _, List.forall_mem_nil _⟩

/-- One more literal; its condition may be there already. -/
theorem Tests.concat (h : m.Tests usedVars cl tests) (hc : m.condition? usedVars l = some c) :
    m.Tests usedVars (cl ++ [l]) (if tests.contains c then tests else tests ++ [c]) := by
  have hmem : ∀ d, d ∈ (if tests.contains c then tests else tests ++ [c]) ↔ d ∈ tests ∨ d = c := by
    intro d
    split
    · next hthere =>
      have hthere : c ∈ tests := List.contains_iff_mem.mp hthere
      exact ⟨.inl, fun hd => hd.elim id fun heq => heq ▸ hthere⟩
    · rw [List.mem_append, List.mem_singleton]
  refine ⟨fun l' hl' => ?_, fun d hd => ?_⟩
  · rcases List.mem_append.mp hl' with hl' | hl'
    · obtain ⟨d, hd, hcondition⟩ := h.complete l' hl'
      exact ⟨d, (hmem d).mpr (.inl hd), hcondition⟩
    · rw [List.mem_singleton.mp hl']
      exact ⟨c, (hmem c).mpr (.inr rfl), hc⟩
  · rcases (hmem d).mp hd with hd | rfl
    · obtain ⟨l', hl', hcondition⟩ := h.sound d hd
      exact ⟨l', List.mem_append_left _ hl', hcondition⟩
    · exact ⟨l, List.mem_append_right _ (List.mem_singleton_self l), hc⟩

/-- The conditions of a clause. -/
theorem Faithful.foldSteps_addTest (h : m.Faithful t) (hc : t.Consistent) {s : Scope}
    (hfold : foldSteps s.addTest (m, []) cl = .ok (m', tests)) :
    m.Tracks m' ∧ m'.Faithful t ∧ m'.Tests s.usedVars cl tests := by
  refine foldSteps_induction (fun seen state => m.Tracks state.1 ∧ state.1.Faithful t ∧
    state.1.Tests s.usedVars seen state.2) hfold ⟨.refl, h, tests_nil m s.usedVars⟩ ?_
  rintro seen l ⟨m₁, tests₁⟩ ⟨m₂, tests₂⟩ - ⟨htracks, hfaithful, htests⟩ hstep
  unfold Scope.addTest at hstep
  split at hstep
  · cases hstep
  · next m₃ c hl =>
    cases hstep
    obtain ⟨hmore, hfaithful', hcondition⟩ := hfaithful.literalTest hc hl
    exact ⟨htracks.trans hmore, hfaithful', (htests.mono hmore.precedes).concat hcondition⟩

/-! ## Guards -/

end Tracked

/-- The clauses of a guard. -/
def Formula.guardClauses (guard : Formula Symbol) : List (Clause Symbol) :=
  guard.toDnf.clauses.toOption.getD []

/-- A true guard has one clause, which is empty. -/
theorem Formula.guardClauses_true : (Formula.const true).guardClauses = [[]] := by
  have hdone : (const true : Formula Symbol).nnf.isDistributed = true := rfl
  rw [guardClauses, toDnf, distributeAll, dif_pos hdone]
  rfl

/-- The clauses of all guards of an automaton. -/
def Automaton.clauses (a : Automaton Symbol) : List (Clause Symbol) :=
  a.transitions.flatMap fun tr => tr.guard.guardClauses

/-- The literals of the clauses have conditions, and the operators have those of a clause each. -/
structure Tracked.Serves (m : Tracked) (usedVars : List (String × VarId))
    (clauses : List (Clause Symbol)) (ops : List Operator) : Prop where
  literals : ∀ cl ∈ clauses, ∀ l ∈ cl, ∃ c, m.condition? usedVars l = some c
  operators : ∀ op ∈ ops, ∃ cl ∈ clauses, m.Tests usedVars cl op.prevail

namespace Tracked

variable {t : Task} {m m' : Tracked} {usedVars : List (String × VarId)}
  {clauses clauses' : List (Clause Symbol)} {ops ops' : List Operator}

theorem serves_nil (m : Tracked) (usedVars : List (String × VarId)) : m.Serves usedVars [] [] :=
  ⟨List.forall_mem_nil _, List.forall_mem_nil _⟩

theorem Serves.mono (h : m.Serves usedVars clauses ops) (hmore : m.Precedes m') :
    m'.Serves usedVars clauses ops := by
  refine ⟨fun cl hcl l hl => ?_, fun op hop => ?_⟩
  · obtain ⟨c, hc⟩ := h.literals cl hcl l hl
    exact ⟨c, hmore.condition? hc⟩
  · obtain ⟨cl, hcl, htests⟩ := h.operators op hop
    exact ⟨cl, hcl, htests.mono hmore⟩

theorem Serves.append (h : m.Serves usedVars clauses ops) (h' : m.Serves usedVars clauses' ops') :
    m.Serves usedVars (clauses ++ clauses') (ops ++ ops') := by
  refine ⟨List.forall_mem_append.mpr ⟨h.literals, h'.literals⟩,
    List.forall_mem_append.mpr ⟨fun op hop => ?_, fun op hop => ?_⟩⟩
  · obtain ⟨cl, hcl, htests⟩ := h.operators op hop
    exact ⟨cl, List.mem_append_left _ hcl, htests⟩
  · obtain ⟨cl, hcl, htests⟩ := h'.operators op hop
    exact ⟨cl, List.mem_append_right _ hcl, htests⟩

/-- The operators of one clause. -/
theorem Tests.serves {cl : Clause Symbol} {tests : List Fact} (h : m.Tests usedVars cl tests)
    (hops : ∀ op ∈ ops, op.prevail = tests) : m.Serves usedVars [cl] ops := by
  refine ⟨List.forall_mem_singleton.mpr fun l hl => ?_, fun op hop => ?_⟩
  · obtain ⟨c, -, hc⟩ := h.complete l hl
    exact ⟨c, hc⟩
  · exact ⟨cl, List.mem_singleton_self cl, by rw [hops op hop]; exact h⟩

/-- Where a literal needs an auxiliary variable, its fact has one and only one. -/
theorem Serves.exists_mirror (h : m.Serves usedVars clauses ops)
    (hfacts : (m.trackers.map Prod.fst).Nodup) {cl : Clause Symbol} (hcl : cl ∈ clauses)
    {l : Literal Symbol} (hl : l ∈ cl) {f : Fact} (hneeds : m.task.NeedsMirror usedVars l f) :
    ∃ mirror, m.condition? usedVars l = some ⟨mirror, 0⟩ ∧
      ∀ other, (f, other) ∈ m.trackers ↔ other = mirror := by
  obtain ⟨c, hc⟩ := h.literals cl hcl l hl
  have hlookup := hc
  rw [condition?_of_needsMirror hneeds, Option.map_eq_some_iff] at hlookup
  obtain ⟨mirror, hmirror, rfl⟩ := hlookup
  have hmem : (f, mirror) ∈ m.trackers := mem_of_lookup_eq_some hmirror
  refine ⟨mirror, hc, fun other => ⟨fun hother => ?_, fun heq => heq ▸ hmem⟩⟩
  exact congrArg Prod.snd (List.inj_on_of_nodup_map hfacts hother hmem rfl)

end Tracked

namespace Scope

/-- Operators are made for clauses of guards, while facts are tracked. -/
structure Serves (s : Scope) (t : Task) (m : Tracked) (clauses : List (Clause Symbol))
    (state : Tracked × List Operator) : Prop where
  tracks : m.Tracks state.1
  faithful : state.1.Faithful t
  serves : state.1.Serves s.usedVars clauses state.2

variable {s : Scope} {t : Task} {m : Tracked} {clauses : List (Clause Symbol)}
  {state state' : Tracked × List Operator}

theorem Serves.append (h : s.Serves t m clauses state) {m' : Tracked}
    {clauses' : List (Clause Symbol)} {ops : List Operator} (htracks : state.1.Tracks m')
    (hfaithful : m'.Faithful t) (hserves : m'.Serves s.usedVars clauses' ops) :
    s.Serves t m (clauses ++ clauses') (m', state.2 ++ ops) :=
  ⟨h.tracks.trans htracks, hfaithful, (h.serves.mono htracks.precedes).append hserves⟩

theorem Serves.addClause (h : s.Serves t m clauses state) (hc : t.Consistent) {move : Move}
    {several : Bool} {clause : Clause Symbol × Nat}
    (hstep : s.addClause move several state clause = .ok state') :
    s.Serves t m (clauses ++ [clause.1]) state' := by
  unfold Scope.addClause at hstep
  split at hstep
  · cases hstep
  · next m₁ tests htests =>
    obtain ⟨htracks, hfaithful, htests⟩ := h.faithful.foldSteps_addTest hc htests
    split at hstep
    · cases hstep
      rw [← List.append_nil state.2]
      exact h.append htracks hfaithful (htests.serves (List.forall_mem_nil _))
    · cases hstep
      exact h.append htracks hfaithful (htests.serves (List.forall_mem_singleton.mpr rfl))

theorem Serves.addTransition (h : s.Serves t m clauses state) (hc : t.Consistent)
    {a : Automaton Symbol} (ha : a.Numbered) {vars : AutomatonVars} {tr : Transition Symbol}
    (htr : tr ∈ a.transitions) (hstep : s.addTransition a vars state tr = .ok state') :
    s.Serves t m (clauses ++ tr.guard.guardClauses) state' := by
  obtain ⟨source, target, hsource, htarget, -, -⟩ := ha.exists_states htr
  unfold Scope.addTransition at hstep
  simp only [hsource, htarget] at hstep
  split at hstep
  · next htrue =>
    cases hstep
    rw [Formula.eq_const_of_isTrue htrue, Formula.guardClauses_true]
    exact h.append .refl h.faithful
      ((state.1.tests_nil s.usedVars).serves (List.forall_mem_singleton.mpr rfl))
  · split at hstep
    · cases hstep
    · next own hown =>
      have hclauses : tr.guard.guardClauses = own.zipIdx.map Prod.fst := by
        rw [Formula.guardClauses, hown, List.zipIdx_map_fst]
        rfl
      rw [hclauses]
      refine foldSteps_induction (fun seen state' =>
        s.Serves t m (clauses ++ seen.map Prod.fst) state') hstep (by simpa using h) ?_
      intro seen clause u u' _ hu hclause
      rw [List.map_append, ← List.append_assoc]
      exact hu.addClause hc hclause

/-- The operators of an automaton. -/
theorem serves_of_foldSteps (hm : m.Faithful t) (hc : t.Consistent) {a : Automaton Symbol}
    (ha : a.Numbered) {vars : AutomatonVars}
    (hfold : foldSteps (s.addTransition a vars) (m, []) a.transitions = .ok state) :
    s.Serves t m a.clauses state := by
  refine foldSteps_induction (fun seen state =>
    s.Serves t m (seen.flatMap fun tr => tr.guard.guardClauses) state) hfold
    ⟨.refl, hm, m.serves_nil s.usedVars⟩ fun seen tr u u' hseen hu hstep => ?_
  rw [List.flatMap_append, List.flatMap_singleton]
  exact hu.addTransition hc ha (mem_of_prefix_concat hseen) hstep

end Scope

/-! ## Automata -/

section

variable {options : CompileOptions} {t t' : Task}

theorem Task.Enlarges.addAutomaton (h : t.Enlarges t') (options : CompileOptions) (soft : Bool)
    (a : Automaton Symbol) : t.Enlarges (addAutomaton options soft t' a).1 := by
  have hposition := h.addStateVariable (.inr (Temporal.factOfValue?_positionValues a)) a.initial
  have htwo : (acceptingValues options.softMark soft a.name).length = 2 := rfl
  have haccepting := hposition.addStateVariable (.inl htwo)
  unfold PlanConstraints.addAutomaton
  cases options.addGoals with
  | false => exact haccepting _
  | true => exact (haccepting _).addGoal _

/-- What the automata are added to. -/
theorem Task.enlarges_addTurns (options : CompileOptions) (t : Task) (hc : t.Consistent)
    (set : PropertySet) (automata : List (Automaton Symbol)) :
    t.Enlarges (addTurns options (recordingOf t set).task automata) := by
  have hrecorded : t.Enlarges (recordingOf t set).task := by
    have hadds := addsValues_recordSets t t.operators.length set.actionSets
    refine ⟨(AppendsTo.refl t).recordSets set.actionSets, ?_, ?_, fun var v hvar hv => ?_⟩
    · simp [recordingOf, task_recordSets, recordAll]
    · simp [recordingOf, task_recordSets, length_recordVariables, hc.length_init]
    · obtain ⟨more, hvars, hmore⟩ := hadds
      rw [recordingOf, hvars, List.getElem?_append_right hvar] at hv
      exact .inr fun value hvalue =>
        (hmore v (List.mem_of_getElem? hv) value hvalue).factOfValue?
  have hturned := hrecorded.addStateVariable
    (.inr (Temporal.factOfValue?_turnValues automata)) 0
  unfold addTurns
  cases options.addGoals with
  | false => exact hturned
  | true => exact hturned.addGoal _

/-- The auxiliary variables mirror facts, the operators of the automata have the conditions of
guards, and what they change is reserved, like the variable for turns. -/
structure Product.Faithful (t : Task) (usedVars : List (String × VarId)) (turn : VarId)
    (clauses : List (Clause Symbol)) (product : Product) : Prop where
  tracked : product.tracked.Faithful t
  bounds : product.tracked.Bounds usedVars
  turn : product.tracked.Reserves t usedVars turn
  serves : product.tracked.Serves usedVars clauses product.moves.flatten
  apart : ∀ op ∈ product.moves.flatten, ∀ e ∈ op.effects,
    product.tracked.Reserves t usedVars e.var

/-- Further variables, none of which is an auxiliary one. -/
theorem Tracked.Faithful.withTask {m : Tracked} (h : m.Faithful t) (henlarges : t.Enlarges t')
    (hlength : m.task.vars.length ≤ t'.vars.length) (hinit : m.task.init <+: t'.init)
    (hops : t'.operators = m.task.operators) : Tracked.Faithful t ⟨t', m.trackers⟩ where
  enlarges := henlarges
  facts := h.facts
  vars := h.vars
  mirrors := fun p hp => by
    obtain ⟨hdomain, hisNew, hmirrors⟩ := h.mirrors p hp
    exact ⟨hdomain, hisNew.mono hlength, hmirrors.of_prefix hinit (hops ▸ hmirrors.operators)⟩

/-- An automaton is added. -/
theorem Product.Faithful.add {usedVars : List (String × VarId)} {turn : VarId}
    {clauses : List (Clause Symbol)} {product product' : Product}
    (h : product.Faithful t usedVars turn clauses) (hc : t.Consistent)
    {p : Property × Automaton Symbol} (hp : p.2.Numbered)
    (hadd : product.add options usedVars p = .ok product') :
    product'.Faithful t usedVars turn (clauses ++ p.2.clauses) := by
  obtain ⟨-, hposition, haccepting⟩ :=
    appendsTo_addAutomaton options h.tracked.enlarges.appends p.1.soft p.2
  obtain ⟨hadded, hposition', haccepting'⟩ :=
    appendsTo_addAutomaton options (.refl product.tracked.task) p.1.soft p.2
  obtain ⟨m, ops, rfl, hfold⟩ := Product.exists_foldSteps_of_add hadd
  have hstart := h.tracked.withTask (h.tracked.enlarges.addAutomaton options p.1.soft p.2)
    hadded.length_le hadded.init (operators_addAutomaton options p.1.soft _ p.2)
  have hserves := Scope.serves_of_foldSteps hstart hc hp hfold
  have hmakes : Scope.MakesMoves _ (fun _ => True) _ _ _ (m, ops) :=
    Scope.makesMoves_of_foldSteps (fun _ _ _ _ _ _ _ _ _ => trivial) hfold
  have hreserves : ∀ var, product.tracked.Reserves t usedVars var → m.Reserves t usedVars var :=
    fun var hvar => (hvar.mono hadded.length_le).tracks hmakes.tracks
  have hprecedes : product.tracked.Precedes
      ⟨(addAutomaton options p.1.soft product.tracked.task p.2).1, product.tracked.trackers⟩ :=
    ⟨hadded.isPrefix, List.prefix_refl _⟩
  refine ⟨hserves.faithful, (h.bounds.mono hadded.length_le).tracks hmakes.tracks,
    hreserves turn h.turn, ?_, ?_⟩
  · rw [List.flatten_append, List.flatten_singleton]
    exact (h.serves.mono (hprecedes.trans hmakes.tracks.precedes)).append hserves.serves
  · rw [List.flatten_append, List.flatten_singleton]
    refine List.forall_mem_append.mpr ⟨fun op hop e he => hreserves _ (h.apart op hop e he),
      fun op hop e he => ?_⟩
    rcases (hmakes.isMove op hop).effects e he with hvar | hvar
    · rw [hvar]
      exact (h.bounds.reserves hposition hposition').tracks hmakes.tracks
    · rw [hvar]
      exact (h.bounds.reserves haccepting haccepting').tracks hmakes.tracks

/-- Before automata are added, there are no auxiliary variables. -/
theorem Product.faithful_start (options : CompileOptions) (hc : t.Consistent) (set : PropertySet)
    (automata : List (Automaton Symbol)) :
    Product.Faithful t (recordingOf t set).usedVars (recordingOf t set).task.nextVar []
      ⟨⟨addTurns options (recordingOf t set).task automata, []⟩, [], []⟩ := by
  have hstart := Product.isStandard_start options t set automata
  rw [recordingOf, usedVars_recordSets]
  exact ⟨⟨t.enlarges_addTurns options hc set automata, List.nodup_nil, List.nodup_nil,
    List.forall_mem_nil _⟩, hstart.bounds, hstart.reserves, Tracked.serves_nil _ _,
      List.forall_mem_nil _⟩

/-- All automata are added. -/
theorem Product.faithful_of_productOf {set : PropertySet} {automata : List (Automaton Symbol)}
    {product : Product} (hc : t.Consistent) (hnumbered : ∀ a ∈ automata, a.Numbered)
    (hlength : automata.length = set.temporal.length)
    (h : productOf options t set automata = .ok product) :
    product.Faithful t (recordingOf t set).usedVars (recordingOf t set).task.nextVar
      (automata.flatMap Automaton.clauses) := by
  have hclauses : automata.flatMap Automaton.clauses =
      (set.temporal.zip automata).flatMap fun p => p.2.clauses := by
    rw [← List.flatMap_map Prod.snd Automaton.clauses, List.map_snd_zip (Nat.le_of_eq hlength)]
  rw [hclauses]
  refine foldSteps_induction (fun seen product => product.Faithful t (recordingOf t set).usedVars
    (recordingOf t set).task.nextVar (seen.flatMap fun p => p.2.clauses)) h
    (Product.faithful_start options hc set automata) fun seen p u u' hseen hu hadd => ?_
  rw [List.flatMap_append, List.flatMap_singleton]
  exact hu.add hc (hnumbered p.2 (List.of_mem_zip (mem_of_prefix_concat hseen)).2) hadd

/-! ## Taking turns -/

/-- What is reserved is neither an auxiliary variable nor one whose facts are mirrored. -/
theorem Tracked.Reserves.apart {m : Tracked} {usedVars : List (String × VarId)} {var : VarId}
    (h : m.Reserves t usedVars var) (hm : m.Faithful t) {p : Fact × VarId}
    (hp : p ∈ m.trackers) : var ≠ p.1.var ∧ var ≠ p.2 := by
  obtain ⟨hdomain, -, -⟩ := hm.mirrors p hp
  refine ⟨Nat.ne_of_gt (Nat.lt_of_lt_of_le hdomain.var_lt h.isNew.1), ?_⟩
  rintro rfl
  exact h.notMem (List.mem_append_right _ (List.mem_map_of_mem hp))

/-- Turns change neither the mirrors nor the conditions of literals. -/
theorem Product.Faithful.inTurns {usedVars : List (String × VarId)} {turn : VarId}
    {clauses : List (Clause Symbol)} {product : Product}
    (h : product.Faithful t usedVars turn clauses) (count : Nat) :
    (∀ p ∈ product.tracked.trackers, (product.inTurns turn count).Mirrors p.1 p.2) ∧
      Tracked.Serves ⟨product.inTurns turn count, product.tracked.trackers⟩ usedVars clauses
        ((product.inTurns turn count).operators.drop t.operators.length) := by
  constructor
  · intro p hp
    obtain ⟨-, -, hmirrors⟩ := h.tracked.mirrors p hp
    have hturn : ∀ owner (op : Operator), op.Mirrors p.1 p.2 →
        (takeTurn turn count owner op).Mirrors p.1 p.2 := by
      intro owner op hop
      rw [takeTurn, Operator.addEffect_eq_extend]
      exact hop.extend [] (List.forall_mem_singleton.mpr (h.turn.apart h.tracked hp))
    refine hmirrors.of_prefix (List.prefix_refl _) (List.forall_mem_append.mpr
      ⟨List.forall_mem_map.mpr fun op hop => hturn 0 op (hmirrors.operators op hop),
        fun op hop => ?_⟩)
    obtain ⟨k, ops, own, hops, hown, rfl⟩ := Temporal.mem_movesInTurn.mp hop
    have hmem : own ∈ product.moves.flatten :=
      List.mem_flatten.mpr ⟨ops, List.mem_of_getElem? hops, hown⟩
    exact hturn _ own (Operator.mirrors_of_apart fun e he =>
      (h.apart own hmem e he).apart h.tracked hp)
  · have hsame : product.tracked.Precedes
        ⟨product.inTurns turn count, product.tracked.trackers⟩ :=
      ⟨List.prefix_refl _, List.prefix_refl _⟩
    have hserves := h.serves.mono hsame
    have hown : (product.tracked.task.mapOperators (takeTurn turn count 0)).operators.length =
        t.operators.length := (List.length_map _).trans h.tracked.enlarges.length_operators
    rw [Product.inTurns, List.drop_left' hown]
    refine ⟨hserves.literals, fun op hop => ?_⟩
    obtain ⟨k, ops, own, hops, hown, rfl⟩ := Temporal.mem_movesInTurn.mp hop
    exact hserves.operators own (List.mem_flatten.mpr ⟨ops, List.mem_of_getElem? hops, hown⟩)

end

/-! ## Compilation -/

/-- The table is the one of the auxiliary variables of a compiled task, which all automata share. -/
structure Compiled.IsTracked (compiled : Compiled) (t : Task) (automata : List (Automaton Symbol))
    (trackers : List (Fact × VarId)) : Prop where
  length_eq : trackers.length = compiled.auxiliary
  /-- Where a literal of a guard needs an auxiliary variable, its fact has one and only one. -/
  needed : ∀ a ∈ automata, ∀ cl ∈ a.clauses, ∀ l ∈ cl, ∀ f,
    compiled.task.NeedsMirror compiled.usedVars l f →
      ∃ mirror, Tracked.condition? ⟨compiled.task, trackers⟩ compiled.usedVars l =
          some ⟨mirror, 0⟩ ∧
        ∀ other, (f, other) ∈ trackers ↔ other = mirror
  /-- The operators of the automata have the conditions that literals have by the table. -/
  serves : Tracked.Serves ⟨compiled.task, trackers⟩ compiled.usedVars
    (automata.flatMap Automaton.clauses) (compiled.task.operators.drop t.operators.length)
  isNew : ∀ f mirror, (f, mirror) ∈ trackers → t.InDomain f ∧ t.IsNew compiled.task mirror
  /-- In every state that operators lead to, the variable is 1 if its fact is true, and 0
  otherwise. -/
  mirrors : ∀ f mirror, (f, mirror) ∈ trackers → ∀ numbers s,
    compiled.task.runAt? numbers = some s →
      s[mirror]? = some (if s[f.var]? = some f.value then 1 else 0)

/-- Auxiliary variables mirror their facts, and all automata share one table of them.  Only the task
has to be consistent: neither what atoms refer to nor the mark of soft goals matters. -/
theorem compileTemporal_mirrors {options : CompileOptions} {translator : Translator} {t : Task}
    {set : PropertySet} {compiled : Compiled} (hcheck : t.check = .ok ())
    (h : compileTemporal options translator t set = .ok compiled) :
    ∃ (automata : List (Automaton Symbol)) (trackers : List (Fact × VarId)),
      traverse (automatonOf translator) set.temporal = .ok automata ∧
        compiled.IsTracked t automata trackers := by
  have hc := t.check_eq_ok_iff.mp hcheck
  unfold compileTemporal at h
  split at h
  · cases h
  · next automata hautomata =>
    have hlength := length_traverse hautomata
    refine ⟨automata, ?_⟩
    unfold compileAutomata at h
    split at h
    · next hnil =>
      cases h
      have hempty : automata = [] := by
        rw [← List.length_eq_zero_iff, hlength, List.length_eq_zero_iff]
        exact List.isEmpty_iff.mp hnil
      subst hempty
      refine ⟨[], hautomata, rfl, List.forall_mem_nil _, ?_, by simp, by simp⟩
      rw [List.drop_length]
      exact Tracked.serves_nil _ _
    · split at h
      · cases h
      · next product hproduct =>
        cases h
        have hnumbered : ∀ a ∈ automata, a.Numbered := fun a ha => by
          obtain ⟨p, -, hp⟩ := mem_of_mem_traverse hautomata ha
          exact numbered_automatonOf hp
        have hfaithful := Product.faithful_of_productOf hc hnumbered hlength hproduct
        obtain ⟨hmirrors, hserves⟩ := hfaithful.inTurns (set.temporal.length + 1)
        exact ⟨product.tracked.trackers, hautomata,
          { length_eq := rfl
            needed := fun a ha cl hcl l hl f hneeds =>
              hserves.exists_mirror hfaithful.tracked.facts (List.mem_flatMap.mpr ⟨a, ha, hcl⟩) hl
                hneeds
            serves := hserves
            isNew := fun f mirror hmem =>
              let ⟨hdomain, hisNew, _⟩ := hfaithful.tracked.mirrors (f, mirror) hmem
              ⟨hdomain, hisNew⟩
            mirrors := fun f mirror hmem numbers s hrun => by
              rw [(hmirrors (f, mirror) hmem).runAt? hrun, Fact.toNat_holds] }⟩

/-- A ferry crosses to `b`, and is carried on to `c` if it is windy. -/
def ferry : Task where
  metric := false
  vars := [⟨"var0", -1, ["Atom a", "Atom b", "Atom c"]⟩, ⟨"var1", -1, ["Atom calm", "Atom windy"]⟩]
  mutexes := []
  init := [0, 1]
  goal := []
  operators := [⟨"cross", [], [⟨0, none, 1, []⟩, ⟨0, none, 2, [⟨1, 1⟩]⟩], 1⟩]
  rules := []

/-- One place must be avoided, and so must two places, one of them the same. -/
def shuns : PropertySet where
  actionSets := .empty
  properties := []
  temporal :=
    [⟨.ofName "one", .unary .always (.neg (.atom (.ofName "b"))), false⟩,
      ⟨.ofName "two", .unary .always (.neg (.or (.atom (.ofName "c")) (.atom (.ofName "B")))),
        false⟩]
  softGoals := []

/-- The translator that knows automata for avoiding places. -/
def shunning : Translator :=
  .ofTable [("[](!c0)", "accept_init :\nif\n:: (!c0) -> goto accept_init\nfi;\n"),
    ("[](!(c0 || c1))", "accept_init :\nif\n:: (!c0 && !c1) -> goto accept_init\nfi;\n")]

/-- The automaton for avoiding one place. -/
def shunningOne : Automaton Symbol :=
  ⟨"one", [⟨"accept_init", 0, true, true, [⟨0, 0, .neg (.atom (.ofName "b"))⟩]⟩], 0⟩

/-- The automaton for avoiding two places. -/
def shunningTwo : Automaton Symbol :=
  ⟨"two", [⟨"accept_init", 0, true, true,
    [⟨0, 0, .and (.neg (.atom (.ofName "c"))) (.neg (.atom (.ofName "B")))⟩]⟩], 0⟩

/-- The ferry is carried past `b`: the auxiliary variable of `b`, which both properties share, is 0
behind it, and that of `c` is 1. -/
theorem ferry_mirrors : ∃ (compiled : Compiled) (trackers : List (Fact × VarId)) (b c : VarId),
    compileTemporal ⟨true, false, true, .exact, "soft_"⟩ shunning ferry shuns = .ok compiled ∧
      trackers.length = 2 ∧
      (∀ name ∈ ["b", "B"], Tracked.condition? ⟨compiled.task, trackers⟩ compiled.usedVars
        ⟨.ofName name, true⟩ = some ⟨b, 0⟩) ∧
      Tracked.condition? ⟨compiled.task, trackers⟩ compiled.usedVars ⟨.ofName "c", true⟩ =
        some ⟨c, 0⟩ ∧
      compiled.task.runAt? [0] = some [2, 1, 1, 0, 1, 0, 0, 1, 1] ∧
        [2, 1, 1, 0, 1, 0, 0, 1, 1][b]? = some 0 ∧
          [2, 1, 1, 0, 1, 0, 0, 1, 1][c]? = some 1 := by
  have hevaluated : (compileTemporal ⟨true, false, true, .exact, "soft_"⟩ shunning ferry
      shuns).toOption.any (fun compiled => compiled.auxiliary = 2 ∧
        compiled.task.NeedsMirror compiled.usedVars ⟨.ofName "b", true⟩ ⟨0, 1⟩ ∧
        compiled.task.NeedsMirror compiled.usedVars ⟨.ofName "B", true⟩ ⟨0, 1⟩ ∧
        compiled.task.NeedsMirror compiled.usedVars ⟨.ofName "c", true⟩ ⟨0, 2⟩ ∧
        compiled.task.runAt? [0] = some [2, 1, 1, 0, 1, 0, 0, 1, 1]) = true := by
    decide +kernel
  obtain ⟨compiled, h, hfacts⟩ := exists_of_toOption_any hevaluated
  obtain ⟨hcount, hb, hB, hc, hrun⟩ := of_decide_eq_true hfacts
  obtain ⟨automata, trackers, hautomata, htracked⟩ := compileTemporal_mirrors (by decide) h
  have hknown : traverse (automatonOf shunning) shuns.temporal = .ok [shunningOne, shunningTwo] :=
    eq_ok_of_toOption (by decide +kernel)
  rw [hknown] at hautomata
  cases hautomata
  obtain ⟨b, hbCondition, hbOnly⟩ := htracked.needed shunningOne (by decide) [⟨.ofName "b", true⟩]
    (by decide +kernel) _ (by decide) _ hb
  obtain ⟨b', hBCondition, hBOnly⟩ := htracked.needed shunningTwo (by decide)
    [⟨.ofName "c", true⟩, ⟨.ofName "B", true⟩] (by decide +kernel) _ (by decide) _ hB
  obtain ⟨c, hcCondition, hcOnly⟩ := htracked.needed shunningTwo (by decide)
    [⟨.ofName "c", true⟩, ⟨.ofName "B", true⟩] (by decide +kernel) _ (by decide) _ hc
  obtain rfl : b' = b := (hbOnly b').mp ((hBOnly b').mpr rfl)
  have hbMirrors := htracked.mirrors ⟨0, 1⟩ b' ((hbOnly b').mpr rfl)
  have hcMirrors := htracked.mirrors ⟨0, 2⟩ c ((hcOnly c).mpr rfl)
  exact ⟨compiled, trackers, b', c, h, htracked.length_eq.trans hcount,
    List.forall_mem_cons.mpr ⟨hbCondition, List.forall_mem_singleton.mpr hBCondition⟩, hcCondition,
      hrun, hbMirrors [0] _ hrun, hcMirrors [0] _ hrun⟩

end PlanConstraints

set_option autoImplicit false

/-!
# Lists of steps that may fail

Applying a function that may fail to every element of a list, from left to right, up to the first
failure.
-/

namespace PlanConstraints

variable {ε σ τ : Type}

/-- The results for all elements, or the first error. -/
def traverse (f : σ → Except ε τ) : List σ → Except ε (List τ)
  | [] => .ok []
  | x :: xs =>
    match f x with
    | .error e => .error e
    | .ok y =>
      match traverse f xs with
      | .error e => .error e
      | .ok ys => .ok (y :: ys)

/-- The state after all elements, or the first error. -/
def foldSteps (step : τ → σ → Except ε τ) (state : τ) : List σ → Except ε τ
  | [] => .ok state
  | x :: xs =>
    match step state x with
    | .error e => .error e
    | .ok state => foldSteps step state xs

/-- What does not fail has a result. -/
theorem exists_of_isOk {x : Except ε τ} (h : x.isOk = true) : ∃ y, x = .ok y := by
  cases x with
  | error e => cases h
  | ok y => exact ⟨y, rfl⟩

theorem eq_ok_of_toOption {x : Except ε τ} {y : τ} (h : x.toOption = some y) : x = .ok y := by
  cases x with
  | error e => cases h
  | ok z =>
    cases h
    rfl

theorem exists_of_toOption_any {x : Except ε τ} {p : τ → Bool} (h : x.toOption.any p = true) :
    ∃ y, x = .ok y ∧ p y = true := by
  cases x with
  | error e => cases h
  | ok y => exact ⟨y, rfl, h⟩

/-- With errors that say the same, two results are the same or both are errors. -/
theorem of_mapError_eq {β : Type} {f : ε → β} {x y : Except ε τ}
    (h : x.mapError f = y.mapError f) :
    x = y ∨ ∃ e e', x = .error e ∧ y = .error e' ∧ f e = f e' := by
  cases x with
  | error e =>
    cases y with
    | error e' => exact .inr ⟨e, e', rfl, rfl, Except.error.inj h⟩
    | ok b => cases h
  | ok a =>
    cases y with
    | error e' => cases h
    | ok b => exact .inl (congrArg Except.ok (Except.ok.inj h))

/-- The results for a list are that of its head and those for its tail. -/
theorem traverse_cons_eq_ok {f : σ → Except ε τ} {x : σ} {xs : List σ} {ys : List τ}
    (h : traverse f (x :: xs) = .ok ys) :
    ∃ y zs, f x = .ok y ∧ traverse f xs = .ok zs ∧ ys = y :: zs := by
  unfold traverse at h
  split at h
  · cases h
  · next y hy =>
    split at h
    · cases h
    · next zs hzs =>
      cases h
      exact ⟨y, zs, hy, hzs, rfl⟩

/-- All elements have results exactly if each has one. -/
theorem exists_traverse_iff {f : σ → Except ε τ} {xs : List σ} :
    (∃ ys, traverse f xs = .ok ys) ↔ ∀ x ∈ xs, ∃ y, f x = .ok y := by
  induction xs with
  | nil => simp [traverse]
  | cons x xs ih =>
    rw [List.forall_mem_cons, ← ih]
    constructor
    · rintro ⟨ys, hys⟩
      obtain ⟨y, zs, hy, hzs, -⟩ := traverse_cons_eq_ok hys
      exact ⟨⟨y, hy⟩, zs, hzs⟩
    · rintro ⟨⟨y, hy⟩, ys, hys⟩
      exact ⟨y :: ys, by rw [traverse, hy, hys]⟩

/-- There are as many results as elements. -/
theorem length_traverse {f : σ → Except ε τ} {xs : List σ} {ys : List τ}
    (h : traverse f xs = .ok ys) : ys.length = xs.length := by
  induction xs generalizing ys with
  | nil => cases h; rfl
  | cons x xs ih =>
    obtain ⟨y, zs, -, hzs, rfl⟩ := traverse_cons_eq_ok h
    simp [ih hzs]

/-- The result at a place is that of the element at the place. -/
theorem getElem?_traverse {f : σ → Except ε τ} {xs : List σ} {ys : List τ}
    (h : traverse f xs = .ok ys) {i : Nat} {x : σ} (hx : xs[i]? = some x) :
    ∃ y, ys[i]? = some y ∧ f x = .ok y := by
  induction xs generalizing ys i with
  | nil => simp at hx
  | cons z zs ih =>
    obtain ⟨w, ws, hw, hws, rfl⟩ := traverse_cons_eq_ok h
    cases i with
    | zero =>
      cases hx
      exact ⟨w, rfl, hw⟩
    | succ i => exact ih hws hx

/-- Every result is that of the element at its place. -/
theorem exists_of_getElem?_traverse {f : σ → Except ε τ} {xs : List σ} {ys : List τ}
    (h : traverse f xs = .ok ys) {i : Nat} {y : τ} (hy : ys[i]? = some y) :
    ∃ x, xs[i]? = some x ∧ f x = .ok y := by
  have hlt : i < xs.length := by
    rw [← length_traverse h]
    exact (List.getElem?_eq_some_iff.mp hy).1
  obtain ⟨y', hy', hf⟩ := getElem?_traverse h (List.getElem?_eq_getElem hlt)
  rw [hy] at hy'
  cases hy'
  exact ⟨xs[i], List.getElem?_eq_getElem hlt, hf⟩

theorem mem_of_mem_traverse {f : σ → Except ε τ} {xs : List σ} {ys : List τ}
    (h : traverse f xs = .ok ys) {y : τ} (hy : y ∈ ys) : ∃ x ∈ xs, f x = .ok y := by
  obtain ⟨i, hi⟩ := List.mem_iff_getElem?.mp hy
  obtain ⟨x, hx, hf⟩ := exists_of_getElem?_traverse h hi
  exact ⟨x, List.mem_of_getElem? hx, hf⟩

/-- Results of different elements are different, if a result tells its element. -/
theorem nodup_map_traverse {κ ι : Type} {f : σ → Except ε τ} {xs : List σ} {ys : List τ}
    (h : traverse f xs = .ok ys) (source : σ → κ) (target : τ → ι) (hxs : (xs.map source).Nodup)
    (hinj : ∀ x x' y y', f x = .ok y → f x' = .ok y' → target y = target y' →
      source x = source x') : (ys.map target).Nodup := by
  induction xs generalizing ys with
  | nil =>
    cases h
    exact List.nodup_nil
  | cons x xs ih =>
    obtain ⟨y, zs, hy, hzs, rfl⟩ := traverse_cons_eq_ok h
    rw [List.map_cons, List.nodup_cons] at hxs ⊢
    refine ⟨fun hmem => ?_, ih hzs hxs.2⟩
    obtain ⟨z, hz, htarget⟩ := List.mem_map.mp hmem
    obtain ⟨x', hx', hfx'⟩ := mem_of_mem_traverse hzs hz
    exact hxs.1 (List.mem_map.mpr ⟨x', hx', hinj x' x z y hfx' hy htarget⟩)

/-- The last element of a part at the front is one of the list. -/
theorem mem_of_prefix_concat {seen xs : List σ} {x : σ} (h : seen ++ [x] <+: xs) : x ∈ xs :=
  h.subset (List.mem_append_right seen (List.mem_singleton_self x))

/-- What holds of the state at first, and is kept by every step together with the elements that
have been seen, holds at the end. -/
theorem foldSteps_induction {step : τ → σ → Except ε τ} {xs : List σ} {s s' : τ}
    (motive : List σ → τ → Prop) (h : foldSteps step s xs = .ok s') (start : motive [] s)
    (next : ∀ seen x u u', seen ++ [x] <+: xs → motive seen u → step u x = .ok u' →
      motive (seen ++ [x]) u') :
    motive xs s' := by
  suffices general : ∀ ys seen u, seen ++ ys = xs → motive seen u →
      foldSteps step u ys = .ok s' → motive (seen ++ ys) s' from
    general xs [] s rfl start h
  intro ys
  induction ys with
  | nil =>
    intro seen u _ hu hfold
    cases hfold
    simpa using hu
  | cons y ys ih =>
    intro seen u hsplit hu hfold
    unfold foldSteps at hfold
    split at hfold
    · cases hfold
    · next u' hstep =>
      have hsplit' : seen ++ [y] ++ ys = xs := by simpa using hsplit
      have hnext := next seen y u u' ⟨ys, hsplit'⟩ hu hstep
      have hrest := ih (seen ++ [y]) u' hsplit' hnext hfold
      simpa using hrest

/-- Steps over two lists one after the other. -/
theorem foldSteps_append (step : τ → σ → Except ε τ) (state : τ) (xs ys : List σ) :
    foldSteps step state (xs ++ ys) =
      match foldSteps step state xs with
      | .error e => .error e
      | .ok state => foldSteps step state ys := by
  induction xs generalizing state with
  | nil => rfl
  | cons x xs ih =>
    simp only [List.cons_append, foldSteps]
    split
    · rfl
    · exact ih _

/-- What holds of the state at first, and is kept by every step, holds at the end. -/
theorem foldSteps_invariant {step : τ → σ → Except ε τ} {xs : List σ} {s s' : τ} (P : τ → Prop)
    (h : foldSteps step s xs = .ok s') (start : P s)
    (next : ∀ x ∈ xs, ∀ u u', P u → step u x = .ok u' → P u') : P s' :=
  foldSteps_induction (fun _ u => P u) h start fun _ x u u' hseen hu hstep =>
    next x (mem_of_prefix_concat hseen) u u' hu hstep

end PlanConstraints

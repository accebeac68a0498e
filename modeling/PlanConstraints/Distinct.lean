set_option autoImplicit false

/-!
# Repetitions

Keeping the first of all elements with the same key.  Formulas list their atoms and clauses their
literals in this way.  Where no two elements have the same key, each is found by its own, and
leaving out repetitions does not change what is found.
-/

namespace PlanConstraints

/-- The elements whose key no earlier element has, in order. -/
def distinctBy {α κ : Type} [DecidableEq κ] (key : α → κ) : List α → List α
  | [] => []
  | a :: l => a :: (distinctBy key l).filter fun b => key b ≠ key a

theorem mem_of_mem_distinctBy {α κ : Type} [DecidableEq κ] {key : α → κ} {l : List α} {a : α}
    (h : a ∈ distinctBy key l) : a ∈ l := by
  induction l with
  | nil => exact h
  | cons b l ih =>
    rcases List.mem_cons.mp h with rfl | h
    · exact List.mem_cons_self
    · exact List.mem_cons_of_mem _ (ih (List.mem_filter.mp h).1)

/-- No two elements that are kept have the same key. -/
theorem nodup_map_distinctBy {α κ : Type} [DecidableEq κ] (key : α → κ) (l : List α) :
    ((distinctBy key l).map key).Nodup := by
  induction l with
  | nil => exact List.nodup_nil
  | cons a l ih =>
    rw [distinctBy, List.map_cons, List.nodup_cons]
    refine ⟨fun h => ?_, ih.sublist (List.filter_sublist.map key)⟩
    obtain ⟨b, hb, hkey⟩ := List.mem_map.mp h
    simpa [hkey] using (List.mem_filter.mp hb).2

/-- Every key of the list is the key of an element that is kept. -/
theorem exists_mem_distinctBy {α κ : Type} [DecidableEq κ] (key : α → κ) {l : List α} {a : α}
    (h : a ∈ l) : ∃ b ∈ distinctBy key l, key b = key a := by
  induction l with
  | nil => cases h
  | cons c l ih =>
    by_cases hc : key a = key c
    · exact ⟨c, List.mem_cons_self, hc.symm⟩
    · rcases List.mem_cons.mp h with rfl | h
      · exact absurd rfl hc
      · obtain ⟨b, hb, hkey⟩ := ih h
        refine ⟨b, List.mem_cons_of_mem _ (List.mem_filter.mpr ⟨hb, ?_⟩), hkey⟩
        simpa [hkey] using hc

theorem mem_map_distinctBy {α κ : Type} [DecidableEq κ] {key : α → κ} {l : List α} {k : κ} :
    k ∈ (distinctBy key l).map key ↔ k ∈ l.map key := by
  constructor
  · intro h
    obtain ⟨a, ha, rfl⟩ := List.mem_map.mp h
    exact List.mem_map_of_mem (mem_of_mem_distinctBy ha)
  · intro h
    obtain ⟨a, ha, rfl⟩ := List.mem_map.mp h
    obtain ⟨b, hb, hkey⟩ := exists_mem_distinctBy key ha
    exact List.mem_map.mpr ⟨b, hb, hkey⟩

/-- The keys of images decide which of them are kept. -/
theorem distinctBy_map {α β κ : Type} [DecidableEq κ] (key : β → κ) (image : α → β) (l : List α) :
    distinctBy key (l.map image) = (distinctBy (fun a => key (image a)) l).map image := by
  induction l with
  | nil => rfl
  | cons a l ih =>
    rw [List.map_cons, distinctBy, ih, distinctBy, List.map_cons, List.filter_map]
    rfl

section

variable {α κ : Type} [DecidableEq κ] {key : α → κ}

/-- Elements may be left out before or after repetitions are, as long as their keys decide which. -/
theorem distinctBy_filter {p : α → Bool} (hp : ∀ a b, key a = key b → p a = p b) (l : List α) :
    distinctBy key (l.filter p) = (distinctBy key l).filter p := by
  induction l with
  | nil => rfl
  | cons a l ih =>
    cases ha : p a with
    | true =>
      rw [List.filter_cons_of_pos ha, distinctBy, ih, distinctBy, List.filter_cons_of_pos ha,
        List.filter_filter, List.filter_filter]
      congr 2
      funext b
      exact Bool.and_comm _ _
    | false =>
      have hne : ¬ p a = true := by rw [ha]; exact Bool.false_ne_true
      rw [List.filter_cons_of_neg hne, ih, distinctBy, List.filter_cons_of_neg hne,
        List.filter_filter]
      -- What has the key of the first element is left out anyway.
      apply List.filter_congr
      intro b _
      by_cases hkey : key b = key a
      · rw [hp b a hkey, ha, Bool.false_and]
      · simp [hkey]

/-- Of the elements with the same key, the first one is kept. -/
theorem distinctBy_eq_eraseDupsBy (key : α → κ) (l : List α) :
    distinctBy key l = l.eraseDupsBy fun a b => key a = key b := by
  induction hlength : l.length using Nat.strongRecOn generalizing l with
  | ind n ih =>
    cases l with
    | nil => rfl
    | cons a l =>
      have hkeys : ∀ b c, key b = key c → decide (key b ≠ key a) = decide (key c ≠ key a) := by
        intro b c h
        rw [h]
      have hshort : (l.filter fun b => decide (key b ≠ key a)).length < n := by
        have hle := List.length_filter_le (fun b => decide (key b ≠ key a)) l
        rw [List.length_cons] at hlength
        omega
      rw [distinctBy, ← distinctBy_filter hkeys, ih _ hshort _ rfl, List.eraseDupsBy_cons]
      simp

/-- Without repetitions everything is kept. -/
theorem distinctBy_eq_self {l : List α} (h : (l.map key).Nodup) : distinctBy key l = l := by
  induction l with
  | nil => rfl
  | cons a l ih =>
    rw [List.map_cons, List.nodup_cons] at h
    rw [distinctBy, ih h.2]
    congr 1
    apply List.filter_eq_self.mpr
    intro b hb
    have hne : key b ≠ key a := fun heq => h.1 (List.mem_map.mpr ⟨b, hb, heq⟩)
    simp [hne]

end

/-- A further element is kept if no element has its key. -/
theorem distinctBy_concat {α κ : Type} [DecidableEq κ] (key : α → κ) (l : List α) (a : α) :
    distinctBy key (l ++ [a]) =
      distinctBy key l ++ if key a ∈ l.map key then [] else [a] := by
  induction l with
  | nil => rfl
  | cons b l ih =>
    rw [List.cons_append, distinctBy, ih, List.filter_append, distinctBy, List.cons_append,
      List.map_cons]
    congr 2
    by_cases hmem : key a ∈ l.map key
    · rw [if_pos hmem, if_pos (List.mem_cons_of_mem _ hmem)]
      rfl
    · by_cases hkey : key a = key b
      · simp [hkey]
      · simp [hmem, hkey]

/-- An element whose key no other element has is found by it. -/
theorem find?_of_nodup {α κ : Type} [DecidableEq κ] (key : α → κ) {l : List α}
    (h : (l.map key).Nodup) {a : α} (ha : a ∈ l) : (l.find? fun b => key b = key a) = some a := by
  induction l with
  | nil => cases ha
  | cons b l ih =>
    rw [List.map_cons, List.nodup_cons] at h
    rcases List.mem_cons.mp ha with rfl | ha
    · exact List.find?_cons_of_pos (decide_eq_true rfl)
    · have hne : key b ≠ key a := fun heq => h.1 (heq ▸ List.mem_map.mpr ⟨a, ha, rfl⟩)
      rw [List.find?_cons_of_neg (by simpa using hne), ih h.2 ha]

/-! ## Looking up -/

/-- What is found for a key is a value of it. -/
theorem mem_of_lookup_eq_some {κ β : Type} [BEq κ] [LawfulBEq κ] {l : List (κ × β)} {k : κ} {v : β}
    (h : l.lookup k = some v) : (k, v) ∈ l := by
  obtain ⟨front, back, rfl, -⟩ := List.lookup_eq_some_iff.mp h
  exact List.mem_append_right front List.mem_cons_self

section

variable {κ β : Type} [DecidableEq κ]

theorem lookup_eq_none_iff {l : List (κ × β)} {k : κ} :
    l.lookup k = none ↔ k ∉ l.map Prod.fst := by
  rw [List.lookup_eq_none_iff, List.mem_map]
  constructor
  · rintro hne ⟨entry, hentry, rfl⟩
    exact absurd (hne entry hentry) (by simp)
  · intro hnone entry hentry
    exact bne_iff_ne.mpr fun heq => hnone ⟨entry, hentry, heq.symm⟩

/-- Where no key has two values, what is found for a key is its value. -/
theorem lookup_eq_some_iff_mem {l : List (κ × β)} {k : κ} {v : β}
    (h : ∀ v v', (k, v) ∈ l → (k, v') ∈ l → v = v') : l.lookup k = some v ↔ (k, v) ∈ l := by
  constructor
  · exact mem_of_lookup_eq_some
  · intro hmem
    cases hlookup : l.lookup k with
    | none => exact absurd (List.lookup_eq_none_iff.mp hlookup _ hmem) (by simp)
    | some v' => rw [h v v' hmem (mem_of_lookup_eq_some hlookup)]

/-- Where the key has no two values, the order does not matter. -/
theorem lookup_eq_of_perm {l l' : List (κ × β)} (hperm : l.Perm l') {k : κ}
    (h : ∀ v v', (k, v) ∈ l → (k, v') ∈ l → v = v') : l.lookup k = l'.lookup k := by
  apply Option.ext
  intro v
  rw [lookup_eq_some_iff_mem h, lookup_eq_some_iff_mem, hperm.mem_iff]
  intro v v' hv hv'
  exact h v v' (hperm.mem_iff.mpr hv) (hperm.mem_iff.mpr hv')

/-- Leaving out repeated keys does not change what is found. -/
theorem lookup_distinctBy (l : List (κ × β)) (k : κ) :
    (distinctBy Prod.fst l).lookup k = l.lookup k := by
  have hfilter : ∀ (l : List (κ × β)) (k' : κ), k ≠ k' →
      (l.filter fun b => b.1 ≠ k').lookup k = l.lookup k := by
    intro l k' hne
    induction l with
    | nil => rfl
    | cons b l ih =>
      by_cases hb : b.1 = k'
      · rw [List.filter_cons_of_neg (by simpa using hb), ih, List.lookup_cons,
          beq_eq_false_iff_ne.mpr (hb ▸ hne)]
      · rw [List.filter_cons_of_pos (by simpa using hb), List.lookup_cons, List.lookup_cons, ih]
  induction l with
  | nil => rfl
  | cons a l ih =>
    by_cases hk : k = a.1
    · rw [distinctBy, List.lookup_cons, List.lookup_cons, beq_iff_eq.mpr hk]
    · rw [distinctBy, List.lookup_cons, List.lookup_cons, beq_eq_false_iff_ne.mpr hk]
      simp only
      rw [hfilter _ _ hk, ih]

end

end PlanConstraints

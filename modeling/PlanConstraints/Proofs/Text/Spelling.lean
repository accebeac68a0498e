import PlanConstraints.Proofs.Text.Numbers

set_option autoImplicit false

/-!
# Spellings of numbers

A number may be spelled in more ways than it is written: with a sign and with zeros in front.
Reading takes a word for a number only if the word spells it (`spells_of_natural?`,
`spells_of_integer?`), and every spelling of a negative number that has the width of its field is
read (`integer?_of_spells`).
-/

namespace PlanConstraints.Text

/-- The decimal digits of the number, perhaps with zeros in front. -/
def IsDecimal (cs : List Char) (n : Nat) : Prop :=
  ∃ zeros : Nat, cs = List.replicate zeros '0' ++ (toString n).toList

/-- The word is a number in decimal digits, perhaps with a sign. -/
inductive Spells (word : String) : Int → Prop where
  | unsigned {n : Nat} (h : IsDecimal word.toList n) : Spells word n
  | positive {n : Nat} {cs : List Char} (hword : word.toList = '+' :: cs) (h : IsDecimal cs n) :
    Spells word n
  | negative {n : Nat} {cs : List Char} (hword : word.toList = '-' :: cs) (h : IsDecimal cs n) :
    Spells word (-n)

/-! ## Digits -/

theorem digitChar_of_isDigit {c : Char} (h : c.isDigit = true) :
    c.toNat - '0'.toNat < 10 ∧ Nat.digitChar (c.toNat - '0'.toNat) = c := by
  have hle : 48 ≤ c.toNat ∧ c.toNat ≤ 57 := by
    simpa [Char.isDigit, UInt32.le_iff_toNat_le] using h
  have hlt : c.toNat - 48 < 10 := by omega
  refine ⟨hlt, Char.toNat_inj.mp ?_⟩
  change (Nat.digitChar (c.toNat - 48)).toNat = c.toNat
  rw [Nat.toNat_digitChar_of_lt_ten hlt]
  omega

/-- Digits behind those of a number that is not zero. -/
theorem toDigits_append_of_go {value n : Nat} (hpos : 0 < value) {cs : List Char}
    (h : digits?.go value cs = some n) : Nat.toDigits 10 value ++ cs = Nat.toDigits 10 n := by
  induction cs generalizing value with
  | nil =>
    cases h
    rw [List.append_nil]
  | cons c cs ih =>
    rw [digits?.go] at h
    split at h
    · next hc =>
      obtain ⟨hlt, hchar⟩ := digitChar_of_isDigit hc
      have hlast : Nat.toDigits 10 value ++ [c] =
          Nat.toDigits 10 (value * 10 + (c.toNat - '0'.toNat)) := by
        rw [Nat.mul_comm, ← Nat.toDigits_append_toDigits (by decide) hpos hlt,
          Nat.toDigits_of_lt_base hlt, hchar]
      rw [List.append_cons, hlast]
      exact ih (by omega) h
    · cases h

theorem isDecimal_of_go {n : Nat} {cs : List Char} (hne : cs ≠ [])
    (h : digits?.go 0 cs = some n) : IsDecimal cs n := by
  induction cs with
  | nil => exact absurd rfl hne
  | cons c cs ih =>
    rw [digits?.go, Nat.zero_mul, Nat.zero_add] at h
    split at h
    · next hc =>
      obtain ⟨hlt, hchar⟩ := digitChar_of_isDigit hc
      by_cases hzero : c.toNat - '0'.toNat = 0
      · -- a zero in front, unless it is the number
        have hc0 : c = '0' := by rw [← hchar, hzero]; rfl
        rw [hzero] at h
        cases cs with
        | nil =>
          cases h
          exact ⟨0, by rw [hc0]; rfl⟩
        | cons d cs =>
          obtain ⟨zeros, hzeros⟩ := ih (List.cons_ne_nil d cs) h
          exact ⟨zeros + 1, by rw [hc0, hzeros, List.replicate_succ, List.cons_append]⟩
      · have hdigits := toDigits_append_of_go (Nat.pos_of_ne_zero hzero) h
        rw [Nat.toDigits_of_lt_base hlt, hchar] at hdigits
        exact ⟨0, by rw [toList_toString, ← hdigits]; rfl⟩
    · cases h

theorem isDecimal_of_digits? {n : Nat} {cs : List Char} (h : digits? cs = some n) :
    IsDecimal cs n := by
  cases cs with
  | nil => cases h
  | cons c cs => exact isDecimal_of_go (List.cons_ne_nil c cs) h

theorem digits?_of_isDecimal {n : Nat} {cs : List Char} (h : IsDecimal cs n) :
    digits? cs = some n := by
  obtain ⟨zeros, rfl⟩ := h
  rw [toList_toString]
  have hgo : digits?.go 0 (List.replicate zeros '0' ++ Nat.toDigits 10 n) = some n := by
    induction zeros with
    | zero =>
      have hread := digits?_toDigits n
      unfold digits? at hread
      split at hread
      · cases hread
      · next hdigits => rwa [List.replicate_zero, List.nil_append, hdigits]
    | succ zeros ih => exact ih
  obtain ⟨c, cs, hcs⟩ := List.exists_cons_of_ne_nil
    (List.append_ne_nil_of_right_ne_nil (List.replicate zeros '0') (Nat.toDigits_ne_nil (n := n)))
  rw [hcs] at hgo ⊢
  exact hgo

/-! ## Numbers -/

theorem IsDecimal.isWord {n : Nat} {cs : List Char} (h : IsDecimal cs n) : IsWord cs := by
  obtain ⟨zeros, rfl⟩ := h
  obtain ⟨-, hdigits⟩ := isWord_natural n
  refine ⟨by simp, fun c hc => ?_⟩
  rcases List.mem_append.mp hc with hc | hc
  · rw [List.eq_of_mem_replicate hc]
    rfl
  · exact hdigits c hc

/-- A number is spelled by a word. -/
theorem Spells.isWord {n : Int} {word : String} (h : Spells word n) : IsWord word.toList := by
  cases h with
  | unsigned h => exact h.isWord
  | positive hword h | negative hword h =>
    rw [hword]
    exact ⟨List.cons_ne_nil _ _, List.forall_mem_cons.mpr ⟨rfl, h.isWord.2⟩⟩

theorem spells_of_natural? {bits n : Nat} {word : String} (h : natural? bits word = some n) :
    Spells word n := by
  unfold natural? at h
  simp only at h
  split at h
  · next m hm =>
    split at h
    · cases h
      split at hm
      · next cs hword => exact .positive hword (isDecimal_of_digits? hm)
      · exact .unsigned (isDecimal_of_digits? hm)
    · cases h
  · cases h

theorem spells_of_integer? {bits : Nat} {n : Int} {word : String}
    (h : integer? bits word = some n) : Spells word n := by
  unfold integer? at h
  split at h
  · next cs hword =>
    split at h
    · next m hm =>
      split at h
      · cases h
        exact .negative hword (isDecimal_of_digits? hm)
      · cases h
    · cases h
  · split at h
    · next m hm =>
      cases h
      exact spells_of_natural? hm
    · cases h

/-- A negative number is read from every spelling of it, if it has the width of the field. -/
theorem integer?_of_spells {bits : Nat} {n : Int} {word : String} (h : Spells word n)
    (hneg : n < 0) : integer? bits word = if -2 ^ (bits - 1) ≤ n then some n else none := by
  cases h with
  | unsigned h | positive hword h => omega
  | @negative m cs hword h =>
    have hpow : ((2 ^ (bits - 1) : Nat) : Int) = 2 ^ (bits - 1) := by push_cast; rfl
    simp only [integer?, hword, digits?_of_isDecimal h, Nat.pow_eq]
    congr 1
    apply propext
    omega

end PlanConstraints.Text

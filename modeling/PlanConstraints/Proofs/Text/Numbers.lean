import Mathlib.Algebra.Group.Nat.Defs
import Mathlib.Algebra.Ring.Int.Defs
import PlanConstraints.Proofs.Text.Words
import PlanConstraints.Text.Split

set_option autoImplicit false

/-!
# Numbers that are written and read

A number that fits the width of a field is read back from its decimal form (`natural?_toString`,
`integer?_toString`), which is one word, and reading gives numbers that fit only.
-/

namespace PlanConstraints.Text

/-- The integers of a width: one bit is for the sign. -/
structure InRange (bits : Nat) (n : Int) : Prop where
  le : -2 ^ (bits - 1) ≤ n
  lt : n < 2 ^ (bits - 1)

instance (bits : Nat) (n : Int) : Decidable (InRange bits n) :=
  decidable_of_iff (-2 ^ (bits - 1) ≤ n ∧ n < 2 ^ (bits - 1))
    ⟨fun h => ⟨h.1, h.2⟩, fun h => ⟨h.le, h.lt⟩⟩

theorem isBlank_eq_false_of_isDigit {c : Char} (h : c.isDigit = true) : isBlank c = false := by
  have hle : 48 ≤ c.toNat ∧ c.toNat ≤ 57 := by
    simpa [Char.isDigit, UInt32.le_iff_toNat_le] using h
  simp [isBlank]
  omega

/-! ## Decimal digits -/

theorem digits?_go (value : Nat) {cs : List Char} (h : ∀ c ∈ cs, c.isDigit = true) :
    digits?.go value cs = some (Nat.ofDigitChars 10 cs value) := by
  induction cs generalizing value with
  | nil => rfl
  | cons c cs ih =>
    obtain ⟨hc, hcs⟩ := List.forall_mem_cons.mp h
    rw [digits?.go, if_pos hc, ih _ hcs, Nat.ofDigitChars_cons, Nat.mul_comm]

theorem isDigit_of_mem_toDigits {n : Nat} {c : Char} (h : c ∈ Nat.toDigits 10 n) :
    c.isDigit = true :=
  Nat.isDigit_of_mem_toDigits (by decide) (by decide) h

theorem digits?_toDigits (n : Nat) : digits? (Nat.toDigits 10 n) = some n := by
  have hread := digits?_go 0 (fun c => isDigit_of_mem_toDigits (n := n) (c := c))
  rw [Nat.ofDigitChars_toDigits (by decide) (by decide)] at hread
  cases hdigits : Nat.toDigits 10 n with
  | nil => exact absurd hdigits Nat.toDigits_ne_nil
  | cons c cs => rwa [hdigits] at hread

/-- Neither sign is a digit. -/
theorem exists_cons_toDigits (n : Nat) :
    ∃ c cs, Nat.toDigits 10 n = c :: cs ∧ c ≠ '+' ∧ c ≠ '-' := by
  cases hdigits : Nat.toDigits 10 n with
  | nil => exact absurd hdigits Nat.toDigits_ne_nil
  | cons c cs =>
    have hc : c.isDigit = true := by
      refine isDigit_of_mem_toDigits (n := n) ?_
      rw [hdigits]
      exact List.mem_cons_self
    refine ⟨c, cs, rfl, ?_, ?_⟩ <;> rintro rfl <;> revert hc <;> decide

/-! ## Natural numbers -/

theorem toList_toString (n : Nat) : (toString n).toList = Nat.toDigits 10 n := Nat.toList_repr

/-- Different numbers are written differently. -/
theorem toString_injective : Function.Injective (toString : Nat → String) := by
  intro n m h
  have hdigits : Nat.toDigits 10 n = Nat.toDigits 10 m := by
    rw [← toList_toString, ← toList_toString, h]
  have hread := digits?_toDigits n
  rw [hdigits, digits?_toDigits] at hread
  exact (Option.some.inj hread).symm

theorem isWord_natural (n : Nat) : IsWord (toString n).toList := by
  rw [toList_toString]
  exact ⟨Nat.toDigits_ne_nil, fun c hc => isBlank_eq_false_of_isDigit (isDigit_of_mem_toDigits hc)⟩

theorem natural?_toString {bits n : Nat} (h : n < 2 ^ bits) :
    natural? bits (toString n) = some n := by
  obtain ⟨c, cs, hdigits, hplus, -⟩ := exists_cons_toDigits n
  have hread : digits? (c :: cs) = some n := hdigits ▸ digits?_toDigits n
  simp [natural?, hdigits, hplus, hread, h]

theorem natural?_lt {bits n : Nat} {text : String} (h : natural? bits text = some n) :
    n < 2 ^ bits := by
  rw [natural?] at h
  split at h
  · split at h
    · next hlt =>
      cases h
      exact hlt
    · cases h
  · cases h

/-! ## Integers -/

/-- A number without a sign is written as a natural number. -/
theorem toString_ofNat (n : Nat) : toString (n : Int) = toString n := rfl

theorem toList_toString_negSucc (n : Nat) :
    (toString (Int.negSucc n)).toList = '-' :: Nat.toDigits 10 (n + 1) := by
  rw [Int.toString_eq_repr, Int.repr, String.toList_append, Nat.toList_repr]
  rfl

theorem isWord_integer (n : Int) : IsWord (toString n).toList := by
  cases n with
  | ofNat n => exact isWord_natural n
  | negSucc n =>
    rw [toList_toString_negSucc]
    refine ⟨List.cons_ne_nil _ _, List.forall_mem_cons.mpr ⟨by decide, fun c hc => ?_⟩⟩
    exact isBlank_eq_false_of_isDigit (isDigit_of_mem_toDigits hc)

theorem integer?_toString {bits : Nat} {n : Int} (h : InRange bits n) :
    integer? bits (toString n) = some n := by
  cases n with
  | ofNat n =>
    obtain ⟨c, cs, hdigits, -, hminus⟩ := exists_cons_toDigits n
    have hlt : n < 2 ^ (bits - 1) := by
      have := h.lt
      rw [Int.ofNat_eq_natCast] at this
      exact_mod_cast this
    have hread := natural?_toString hlt
    rw [integer?]
    split
    · next heq =>
      rw [Int.ofNat_eq_natCast, toString_ofNat, toList_toString, hdigits] at heq
      exact absurd (List.cons.inj heq).1 hminus
    · rw [Int.ofNat_eq_natCast, toString_ofNat, hread]
  | negSucc n =>
    have hle : n + 1 ≤ 2 ^ (bits - 1) := by
      have := h.le
      rw [Int.negSucc_eq] at this
      have hcast : ((n + 1 : Nat) : Int) ≤ ((2 ^ (bits - 1) : Nat) : Int) := by
        push_cast
        omega
      exact_mod_cast hcast
    rw [integer?, toList_toString_negSucc]
    simp only [digits?_toDigits, Nat.pow_eq, if_pos hle]
    rfl

theorem integer?_inRange {bits : Nat} {n : Int} {text : String} (h : integer? bits text = some n) :
    InRange bits n := by
  rw [integer?] at h
  split at h
  · split at h
    · next m _ =>
      split at h
      · next hle =>
        cases h
        have hle : m ≤ 2 ^ (bits - 1) := hle
        have hpos : 0 < 2 ^ (bits - 1) := Nat.two_pow_pos _
        have hcast : (m : Int) ≤ 2 ^ (bits - 1) := by exact_mod_cast hle
        have hcast' : (0 : Int) < 2 ^ (bits - 1) := by exact_mod_cast hpos
        exact ⟨by omega, by omega⟩
      · cases h
    · cases h
  · split at h
    · next m hm =>
      cases h
      have hlt : (m : Int) < 2 ^ (bits - 1) := by exact_mod_cast natural?_lt hm
      exact ⟨by omega, hlt⟩
    · cases h

/-- What is read both as a natural number and as an integer is the same number. -/
theorem integer?_eq_natural? {bits bits' n : Nat} {i : Int} {text : String}
    (hn : natural? bits text = some n) (hi : integer? bits' text = some i) : i = n := by
  rw [natural?] at hn
  rw [integer?] at hi
  split at hi
  · next cs hminus =>
    -- the minus sign is not a digit
    rw [hminus] at hn
    simp [digits?, digits?.go] at hn
  · split at hi
    · next m hm =>
      cases hi
      rw [natural?] at hm
      split at hm
      · next k hk =>
        rw [hk] at hn
        split at hm <;> split at hn <;> simp_all
      · cases hm
    · cases hi

/-- A number that is written is read as itself, if it is read. -/
theorem eq_of_natural?_toString {bits n m : Nat} (h : natural? bits (toString n) = some m) :
    m = n ∧ n < 2 ^ bits := by
  have hfits : InRange (n + 2) (n : Int) := by
    have hlt : (n : Int) < 2 ^ (n + 1) := by
      exact_mod_cast Nat.lt_trans (Nat.lt_succ_self n) Nat.lt_two_pow_self
    have hle : -(2 ^ (n + 1) : Int) ≤ n := by omega
    exact ⟨hle, hlt⟩
  have hinteger := integer?_toString hfits
  rw [toString_ofNat] at hinteger
  have hsame := integer?_eq_natural? h hinteger
  have hmn : m = n := by exact_mod_cast hsame.symm
  exact ⟨hmn, hmn ▸ natural?_lt h⟩

end PlanConstraints.Text

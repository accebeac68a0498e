set_option autoImplicit false

/-!
# Text: pieces and numbers

Lines between line feeds, names between slashes, arguments between commas: the pieces with the
separators put back between them are the text (`join_split`).

Numbers are written with decimal digits and an optional sign.  A `+` is always allowed, a `-` only
where the number may be negative, and a number outside the range of its field is refused.
-/

namespace PlanConstraints.Text

/-- The pieces of a text between its separators; there is always at least one. -/
def split (separator : Char) : List Char → List (List Char)
  | [] => [[]]
  | c :: cs =>
    if c = separator then [] :: split separator cs
    else
      match split separator cs with
      | [] => [[c]]
      | piece :: more => (c :: piece) :: more

/-- Pieces one after the other, with a separator between any two. -/
def join (separator : Char) : List (List Char) → List Char
  | [] => []
  | [piece] => piece
  | piece :: next :: more => piece ++ separator :: join separator (next :: more)

theorem split_ne_nil (separator : Char) (cs : List Char) : split separator cs ≠ [] := by
  cases cs with
  | nil => simp [split]
  | cons c cs =>
    unfold split
    split
    · simp
    · split <;> simp

theorem join_split (separator : Char) (cs : List Char) :
    join separator (split separator cs) = cs := by
  induction cs with
  | nil => rfl
  | cons c cs ih =>
    unfold split
    cases h : split separator cs with
    | nil => exact absurd h (split_ne_nil separator cs)
    | cons piece more =>
      rw [h] at ih
      split
      · next hc => simp [join, ih, hc]
      · cases more with
        | nil => simpa [join] using ih
        | cons next more => simpa [join] using ih

/-! ## Numbers -/

/-- The value of a text made of decimal digits only, with at least one of them. -/
def digits? : List Char → Option Nat
  | [] => none
  | c :: cs => go 0 (c :: cs)
where
  /-- Reads on after digits of the given value. -/
  go (value : Nat) : List Char → Option Nat
    | [] => some value
    | c :: cs => if c.isDigit then go (value * 10 + (c.toNat - '0'.toNat)) cs else none

/-- A number from `0` to `2 ^ bits - 1`. -/
def natural? (bits : Nat) (text : String) : Option Nat :=
  let unsigned := match text.toList with
    | '+' :: cs => cs
    | cs => cs
  match digits? unsigned with
  | some n => if n < Nat.pow 2 bits then some n else none
  | none => none

/-- A number from `- 2 ^ (bits - 1)` to `2 ^ (bits - 1) - 1`. -/
def integer? (bits : Nat) (text : String) : Option Int :=
  match text.toList with
  | '-' :: cs =>
    match digits? cs with
    | some n => if n ≤ Nat.pow 2 (bits - 1) then some (-(n : Int)) else none
    | none => none
  | _ =>
    match natural? (bits - 1) text with
    | some n => some n
    | none => none

end PlanConstraints.Text

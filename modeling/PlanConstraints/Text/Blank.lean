set_option autoImplicit false

/-!
# Text: white space and words

The files this library reads are made of words separated by white space.  This module fixes what
white space is, cuts a text into its words and removes the white space around it.

A text is a list of characters here.  Positions are counted in bytes of the UTF-8 form, since that
is how spans address a text.
-/

namespace PlanConstraints.Text

/-- The characters with the `White_Space` property. -/
def isBlank (c : Char) : Bool :=
  (9 ≤ c.toNat && c.toNat ≤ 13) || c.toNat == 0x20 || c.toNat == 0x85 || c.toNat == 0xa0
    || c.toNat == 0x1680 || (0x2000 ≤ c.toNat && c.toNat ≤ 0x200a) || c.toNat == 0x2028
    || c.toNat == 0x2029 || c.toNat == 0x202f || c.toNat == 0x205f || c.toNat == 0x3000

/-- Number of bytes of the UTF-8 form. -/
def byteLength : List Char → Nat
  | [] => 0
  | c :: cs => c.utf8Size + byteLength cs

@[simp] theorem byteLength_nil : byteLength [] = 0 := rfl

@[simp] theorem byteLength_cons (c : Char) (cs : List Char) :
    byteLength (c :: cs) = c.utf8Size + byteLength cs := rfl

@[simp] theorem byteLength_append (a b : List Char) :
    byteLength (a ++ b) = byteLength a + byteLength b := by
  induction a with
  | nil => simp
  | cons c a ih => simp [ih, Nat.add_assoc]

/-! ## Trimming -/

/-- The text without the white space in front. -/
def trimLeft (cs : List Char) : List Char := cs.dropWhile isBlank

/-- The text without the white space behind. -/
def trimRight : List Char → List Char
  | [] => []
  | c :: cs =>
    match trimRight cs with
    | [] => if isBlank c then [] else [c]
    | d :: ds => c :: d :: ds

/-- The text without the white space around it. -/
def trim (cs : List Char) : List Char := trimRight (trimLeft cs)

theorem length_trimRight_le (cs : List Char) : (trimRight cs).length ≤ cs.length := by
  induction cs with
  | nil => simp [trimRight]
  | cons c cs ih =>
    rw [trimRight]
    split
    · split <;> simp
    · next h => rw [h] at ih; simp only [List.length_cons] at *; omega

theorem length_trim_le (cs : List Char) : (trim cs).length ≤ cs.length :=
  Nat.le_trans (length_trimRight_le _) (List.dropWhile_suffix isBlank).length_le

/-! ## Words -/

/-- The maximal runs of characters that are not blank, each with the byte at which it starts, when
the text itself starts at byte `start`. -/
def wordsFrom (start : Nat) : List Char → List (Nat × List Char)
  | [] => []
  | c :: cs =>
    let rest := wordsFrom (start + c.utf8Size) cs
    if isBlank c then rest
    else
      match rest with
      | [] => [(start, [c])]
      | (pos, word) :: more =>
        if pos = start + c.utf8Size then (start, c :: word) :: more
        else (start, [c]) :: (pos, word) :: more

theorem wordsFrom_cons (start : Nat) (c : Char) (cs : List Char) :
    wordsFrom start (c :: cs) =
      if isBlank c then wordsFrom (start + c.utf8Size) cs
      else
        match wordsFrom (start + c.utf8Size) cs with
        | [] => [(start, [c])]
        | (pos, word) :: more =>
          if pos = start + c.utf8Size then (start, c :: word) :: more
          else (start, [c]) :: (pos, word) :: more := rfl

def words (cs : List Char) : List (List Char) := (wordsFrom 0 cs).map (·.2)

def wordsOf (text : String) : List String := (words text.toList).map String.ofList

end PlanConstraints.Text

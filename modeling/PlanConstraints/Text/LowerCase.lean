import PlanConstraints.Text.Case

set_option autoImplicit false

/-!
# Text: lower case

Names of planning objects, types and actions do not depend on letter case: they are compared in
lower case.  The mapping is the full one of Unicode: a capital sigma at the end of a word becomes a
final sigma, and a dotted capital I becomes two characters.

There are two lower cases, which differ in the end of a word only.  That of a text looks at the
whole text around a sigma.  That of a symbol follows an earlier Unicode, and does not look back into
the blocks of ASCII characters at the start of the symbol.
-/

namespace PlanConstraints.Text

/-- The lower case of a text that follows the characters of `before`, the nearest one first. -/
def lowerAfter (p : CaseProperties) (before : List Char) : List Char → List Char
  | [] => []
  | c :: cs =>
    if c.toNat = 0x3a3 then
      Char.ofNat (if p.startsCased before && !p.startsCased cs then 0x3c2 else 0x3c3)
        :: lowerAfter p (c :: before) cs
    else lowerChar c ++ lowerAfter p (c :: before) cs

def lowerCase (text : String) : String := String.ofList (lowerAfter .unicode17 [] text.toList)

/-! ## Symbols -/

def blockLength : Nat := 16

/-- The characters of the blocks of nothing but ASCII characters at the start of a text, and the
text behind them. -/
def splitBlocks (cs : List Char) : List Char × List Char :=
  if blockLength ≤ cs.length ∧ (cs.take blockLength).all (·.toNat < 128) then
    let (front, rest) := splitBlocks (cs.drop blockLength)
    (cs.take blockLength ++ front, rest)
  else ([], cs)
termination_by cs.length
decreasing_by
  simp only [List.length_drop, blockLength] at *
  omega

/-- The blocks at the start and the rest make up the text. -/
theorem splitBlocks_append (cs : List Char) : (splitBlocks cs).1 ++ (splitBlocks cs).2 = cs := by
  induction cs using splitBlocks.induct with
  | case1 cs h front rest eq ih =>
    rw [splitBlocks, if_pos h]
    simp only [eq] at ih ⊢
    rw [List.append_assoc, ih, List.take_append_drop]
  | case2 cs h => rw [splitBlocks, if_neg h, List.nil_append]

/-- The lower case of a symbol, as the type of symbols has it: each character gets its full lower
case, and a capital sigma that ends a word becomes a final one, as in a text.  But the blocks of
sixteen ASCII characters at the start are put in lower case by themselves, so that a sigma behind
them does not see their letters, and words end where they do in Unicode 15.

No result depends on these differences: they use that a lower case stays as it is when it is taken
again, and nothing else. -/
def lowerSymbol (text : String) : String :=
  let (front, rest) := splitBlocks text.toList
  String.ofList (front.map Char.toLower ++ lowerAfter .unicode15 [] rest)

end PlanConstraints.Text

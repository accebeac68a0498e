import PlanConstraints.Text.LowerCase

set_option autoImplicit false

/-!
# Lower case is final

Putting a symbol in lower case twice is the same as doing it once (`lowerSymbol_lowerSymbol`), so
that a name may be put in lower case wherever it is used.  The reason is a property of the table of
capital letters: no lower case letter that it gives is a capital letter itself.
-/

namespace PlanConstraints.Text

/-! ## Runs of capital letters -/

namespace CapitalRun

/-- The code point is a letter of the run. -/
def Has (run : CapitalRun) (code : Nat) : Prop :=
  run.first ≤ code ∧ code ≤ run.last ∧ (code - run.first) % run.step = 0

theorem maps_iff {run : CapitalRun} {code image : Nat} :
    run.apply? code = some image ↔ run.Has code ∧ run.lower + (code - run.first) = image := by
  unfold CapitalRun.apply?
  simp [Has, and_assoc]

theorem maps_none_iff {run : CapitalRun} {code : Nat} :
    run.apply? code = none ↔ ¬ run.Has code := by
  unfold CapitalRun.apply?
  simp [Has, and_assoc]

/-- The lower case letters of the run are no letters of the other run: they come behind it or before
it, or lie between its letters, if both take every second code point. -/
def avoids (run other : CapitalRun) : Bool :=
  Nat.blt other.last run.lower || Nat.blt (run.lower + (run.last - run.first)) other.first
    || (Nat.beq other.step 2 && (Nat.beq run.step 2 || Nat.beq run.first run.last)
      && Nat.beq ((run.lower + other.first) % 2) 1)

theorem not_has_of_avoids {run other : CapitalRun} (h : run.avoids other = true) {code : Nat}
    (hcode : run.Has code) : ¬ other.Has (run.lower + (code - run.first)) := by
  rintro ⟨hfirst, hlast, hstep⟩
  obtain ⟨hge, hle, hmod⟩ := hcode
  simp only [avoids, Bool.or_eq_true, Bool.and_eq_true, Nat.blt_eq, Nat.beq_eq] at h
  rcases h with (hbehind | hbefore) | ⟨⟨hother, hrun⟩, hodd⟩
  · omega
  · omega
  · have heven : (code - run.first) % 2 = 0 := by
      rcases hrun with hrun | hsingle
      · rw [← hrun]
        exact hmod
      · omega
    rw [hother] at hstep
    omega

end CapitalRun

/-- The run of the ASCII capital letters. -/
def asciiRun : CapitalRun := ⟨0x41, 0x5a, 1, 0x61⟩

/-- The run of the dotted capital I alone, whose lower case is not that of a run. -/
def dottedRun : CapitalRun := ⟨0x130, 0x130, 1, 0x69⟩

/-- No run leads to capital letters. -/
theorem avoids_of_mem_capitalRuns {run other : CapitalRun} (hrun : run ∈ capitalRuns)
    (hother : other ∈ dottedRun :: capitalRuns) : run.avoids other = true := by
  have hall : (capitalRuns.all fun run => (dottedRun :: capitalRuns).all run.avoids) = true := by
    decide +kernel
  exact List.all_eq_true.mp (List.all_eq_true.mp hall run hrun) other hother

/-! ## Characters -/

/-- The character has no other lower case. -/
def IsSmall (c : Char) : Prop := ∀ run ∈ dottedRun :: capitalRuns, ¬ run.Has c.toNat

/-- The only run with ASCII characters is the first one. -/
theorem findSome?_of_ascii {code : Nat} (h : code < 128) :
    (capitalRuns.findSome? fun run => run.apply? code) =
      [asciiRun].findSome? fun run => run.apply? code := by
  have hrest : ∀ run ∈ capitalRuns.tail, 128 ≤ run.first := by decide +kernel
  have hnone : (capitalRuns.tail.findSome? fun run => run.apply? code) = none := by
    refine List.findSome?_eq_none_iff.mpr fun run hrun => CapitalRun.maps_none_iff.mpr ?_
    rintro ⟨hfirst, -, -⟩
    exact absurd (Nat.le_trans (hrest run hrun) hfirst) (Nat.not_le_of_lt h)
  rw [show capitalRuns = asciiRun :: capitalRuns.tail from rfl, List.findSome?_cons, hnone,
    List.findSome?_cons, List.findSome?_nil]

/-- The table also gives the lower case of ASCII characters. -/
theorem lowerChar_eq {c : Char} (hdotted : c.toNat ≠ 0x130) :
    lowerChar c =
      (capitalRuns.findSome? fun run => run.apply? c.toNat).elim [c] fun code =>
        [Char.ofNat code] := by
  have hascii : ∀ n < 128, [(Char.ofNat n).toLower] =
      ([asciiRun].findSome? fun run => run.apply? n).elim [Char.ofNat n] fun code =>
        [Char.ofNat code] := by decide +kernel
  by_cases h : c.toNat < 128
  · rw [lowerChar_of_ascii h, findSome?_of_ascii h]
    simpa only [Char.ofNat_toNat] using hascii c.toNat h
  · rw [lowerChar, if_neg h, if_neg hdotted]
    cases capitalRuns.findSome? fun run => run.apply? c.toNat <;> rfl

namespace IsSmall

variable {c : Char}

theorem ne_dotted (h : IsSmall c) : c.toNat ≠ 0x130 := by
  intro hc
  exact h dottedRun List.mem_cons_self (by rw [hc]; exact ⟨Nat.le_refl _, Nat.le_refl _, rfl⟩)

theorem findSome?_eq_none (h : IsSmall c) :
    (capitalRuns.findSome? fun run => run.apply? c.toNat) = none :=
  List.findSome?_eq_none_iff.mpr fun run hrun =>
    CapitalRun.maps_none_iff.mpr (h run (List.mem_cons_of_mem _ hrun))

theorem ne_sigma (h : IsSmall c) : c.toNat ≠ 0x3a3 := by
  intro hc
  have hsigma : (capitalRuns.findSome? fun run => run.apply? 0x3a3) ≠ none := by decide +kernel
  exact hsigma (hc ▸ h.findSome?_eq_none)

theorem lowerChar_eq (h : IsSmall c) : lowerChar c = [c] := by
  rw [Text.lowerChar_eq h.ne_dotted, h.findSome?_eq_none, Option.elim_none]

end IsSmall

theorem toNat_ofNat_or (n : Nat) : (Char.ofNat n).toNat = n ∨ (Char.ofNat n).toNat = 0 := by
  by_cases h : n.isValidChar
  · rw [Char.ofNat, dif_pos h]
    exact .inl rfl
  · rw [Char.ofNat, dif_neg h]
    exact .inr rfl

theorem isSmall_of_toNat_eq_zero {c : Char} (h : c.toNat = 0) : IsSmall c := by
  have hpos : ∀ run ∈ dottedRun :: capitalRuns, 0 < run.first := by decide +kernel
  rintro run hrun ⟨hfirst, -, -⟩
  have := hpos run hrun
  omega

/-- What stands for a character in lower case has no other lower case. -/
theorem isSmall_of_mem_lowerChar {c d : Char} (h : d ∈ lowerChar c) : IsSmall d := by
  by_cases hdotted : c.toNat = 0x130
  · have hsmall : ∀ d ∈ ['i', Char.ofNat 0x307], ∀ run ∈ dottedRun :: capitalRuns,
        run.apply? d.toNat = none := by decide +kernel
    have hd : d ∈ ['i', Char.ofNat 0x307] := by simpa [lowerChar, hdotted] using h
    exact fun run hrun => CapitalRun.maps_none_iff.mp (hsmall d hd run hrun)
  · rw [lowerChar_eq hdotted] at h
    cases hfound : capitalRuns.findSome? fun run => run.apply? c.toNat with
    | some code =>
      obtain ⟨run, hrun, happly⟩ := List.exists_of_findSome?_eq_some hfound
      obtain ⟨hhas, rfl⟩ := CapitalRun.maps_iff.mp happly
      rw [hfound, Option.elim_some] at h
      rw [List.mem_singleton.mp h]
      rcases toNat_ofNat_or (run.lower + (c.toNat - run.first)) with hcode | hcode
      · intro other hother
        rw [hcode]
        exact CapitalRun.not_has_of_avoids (avoids_of_mem_capitalRuns hrun hother) hhas
      · exact isSmall_of_toNat_eq_zero hcode
    | none =>
      rw [hfound, Option.elim_none] at h
      rw [List.mem_singleton.mp h]
      refine List.forall_mem_cons.mpr ⟨?_, fun run hrun => ?_⟩
      · rintro ⟨hfirst, hlast, -⟩
        exact hdotted (Nat.le_antisymm hlast hfirst)
      · exact CapitalRun.maps_none_iff.mp (List.findSome?_eq_none_iff.mp hfound run hrun)

/-! ## Texts -/

theorem isSmall_of_mem_lowerAfter {p : CaseProperties} {before cs : List Char} {d : Char}
    (h : d ∈ lowerAfter p before cs) : IsSmall d := by
  induction cs generalizing before with
  | nil => cases h
  | cons c cs ih =>
    rw [lowerAfter] at h
    split at h
    · rcases List.mem_cons.mp h with rfl | h
      · -- Both small sigmas are the lower case of a character.
        have hsigma : ∀ final : Bool, Char.ofNat (if final then 0x3c2 else 0x3c3) ∈
            lowerChar (Char.ofNat (if final then 0x3c2 else 0x3a3)) := by decide +kernel
        exact isSmall_of_mem_lowerChar (hsigma _)
      · exact ih h
    · rcases List.mem_append.mp h with h | h
      · exact isSmall_of_mem_lowerChar h
      · exact ih h

theorem lowerAfter_of_isSmall {p : CaseProperties} {before cs : List Char}
    (h : ∀ c ∈ cs, IsSmall c) : lowerAfter p before cs = cs := by
  induction cs generalizing before with
  | nil => rfl
  | cons c cs ih =>
    obtain ⟨hc, hcs⟩ := List.forall_mem_cons.mp h
    rw [lowerAfter, if_neg hc.ne_sigma, hc.lowerChar_eq, ih hcs]
    rfl

/-- The blocks that are split off hold ASCII characters only. -/
theorem toNat_lt_of_mem_splitBlocks {cs : List Char} {c : Char} (h : c ∈ (splitBlocks cs).1) :
    c.toNat < 128 := by
  induction cs using splitBlocks.induct with
  | case1 cs hblock front rest eq ih =>
    rw [splitBlocks, if_pos hblock] at h
    simp only [eq] at ih h
    rcases List.mem_append.mp h with h | h
    · simpa using List.all_eq_true.mp hblock.2 c h
    · exact ih h
  | case2 cs hblock =>
    rw [splitBlocks, if_neg hblock] at h
    cases h

/-! ## Symbols -/

theorem isSmall_of_mem_lowerSymbol {text : String} {d : Char}
    (h : d ∈ (lowerSymbol text).toList) : IsSmall d := by
  rw [lowerSymbol, String.toList_ofList] at h
  rcases List.mem_append.mp h with h | h
  · obtain ⟨c, hc, rfl⟩ := List.mem_map.mp h
    refine isSmall_of_mem_lowerChar (c := c) ?_
    rw [lowerChar_of_ascii (toNat_lt_of_mem_splitBlocks hc)]
    exact List.mem_singleton_self _
  · exact isSmall_of_mem_lowerAfter h

theorem lowerSymbol_of_isSmall {text : String} (h : ∀ c ∈ text.toList, IsSmall c) :
    lowerSymbol text = text := by
  have hsplit := splitBlocks_append text.toList
  have hfront : (splitBlocks text.toList).1.map Char.toLower = (splitBlocks text.toList).1 := by
    refine (List.map_congr_left fun c hc => ?_).trans (List.map_id _)
    have hsmall : IsSmall c := h c (hsplit ▸ List.mem_append_left _ hc)
    have hlower := hsmall.lowerChar_eq
    rw [lowerChar_of_ascii (toNat_lt_of_mem_splitBlocks hc)] at hlower
    exact List.head_eq_of_cons_eq hlower
  have hrest : lowerAfter .unicode15 [] (splitBlocks text.toList).2 =
      (splitBlocks text.toList).2 :=
    lowerAfter_of_isSmall fun c hc => h c (hsplit ▸ List.mem_append_right _ hc)
  rw [lowerSymbol]
  simp only [hfront, hrest, hsplit, String.ofList_toList]

/-- A symbol in lower case has no other lower case. -/
@[simp] theorem lowerSymbol_lowerSymbol (text : String) :
    lowerSymbol (lowerSymbol text) = lowerSymbol text :=
  lowerSymbol_of_isSmall fun _ hc => isSmall_of_mem_lowerSymbol hc

end PlanConstraints.Text

import PlanConstraints.Text.Blank

set_option autoImplicit false

/-!
# Words between blanks

Cutting a text into words finds words only (`isWord_of_mem_words`), and finds those again that were
put behind each other with blanks between them (`wordsOf_intercalate`).  The words are the runs of
characters that are not blank and cannot be made longer, each at its place (`mem_wordsFrom_iff`).
-/

namespace PlanConstraints.Text

/-- What holds of all characters of a list is decided by a look at each of them, not at all the
characters there are. -/
instance (priority := high) decidableForallMem (p : Char → Prop) [DecidablePred p]
    (cs : List Char) : Decidable (∀ c ∈ cs, p c) := List.decidableBAll p cs

/-- Characters that are one word: there are some, and none of them is blank. -/
structure IsWord (cs : List Char) : Prop where
  ne_nil : cs ≠ []
  notBlank : ∀ c ∈ cs, isBlank c = false

instance (cs : List Char) : Decidable (IsWord cs) :=
  decidable_of_iff (cs ≠ [] ∧ ∀ c ∈ cs, isBlank c = false)
    ⟨fun h => ⟨h.1, h.2⟩, fun h => ⟨h.ne_nil, h.notBlank⟩⟩

theorem IsWord.append {cs ds : List Char} (hcs : IsWord cs) (hds : ∀ c ∈ ds, isBlank c = false) :
    IsWord (cs ++ ds) := by
  refine ⟨List.append_ne_nil_of_left_ne_nil hcs.ne_nil ds, fun c hc => ?_⟩
  exact (List.mem_append.mp hc).elim (hcs.notBlank c) (hds c)

/-! ## Where words start -/

theorem le_of_mem_wordsFrom {start : Nat} {cs : List Char} {p : Nat × List Char}
    (h : p ∈ wordsFrom start cs) : start ≤ p.1 := by
  induction cs generalizing start p with
  | nil => cases h
  | cons c cs ih =>
    have hrest : ∀ q ∈ wordsFrom (start + c.utf8Size) cs, start ≤ q.1 := fun q hq =>
      Nat.le_trans (Nat.le_add_right _ _) (ih hq)
    rw [wordsFrom_cons] at h
    split at h
    · exact hrest p h
    · split at h
      · cases List.mem_singleton.mp h
        exact Nat.le_refl start
      · next pos word more heq =>
        rw [heq] at hrest
        split at h
        · rcases List.mem_cons.mp h with rfl | h
          · exact Nat.le_refl start
          · exact hrest p (List.mem_cons_of_mem _ h)
        · rcases List.mem_cons.mp h with rfl | h
          · exact Nat.le_refl start
          · exact hrest p h

/-- Nothing follows the last character of a text. -/
theorem wordsFrom_singleton (start : Nat) {c : Char} (hc : isBlank c = false) :
    wordsFrom start [c] = [(start, [c])] := by
  simp [wordsFrom, hc]

/-- A blank ends a word. -/
theorem wordsFrom_cons_blank (start : Nat) {c b : Char} (hc : isBlank c = false)
    (hb : isBlank b = true) (cs : List Char) :
    wordsFrom start (c :: b :: cs) = (start, [c]) :: wordsFrom (start + c.utf8Size) (b :: cs) := by
  rw [wordsFrom_cons]
  simp only [hc, Bool.false_eq_true, if_false]
  split
  · next hnil => rw [hnil]
  · next pos word more heq =>
    have hpos : start + c.utf8Size + b.utf8Size ≤ pos := by
      have hmem : (pos, word) ∈ wordsFrom (start + c.utf8Size) (b :: cs) := by
        rw [heq]
        exact List.mem_cons_self
      simp only [wordsFrom_cons, hb, if_true] at hmem
      exact le_of_mem_wordsFrom hmem
    have hsize := b.utf8Size_pos
    rw [if_neg (by omega), heq]

/-- A word begins at a character that is not blank, and goes on with the word behind it. -/
theorem wordsFrom_cons_cons (start : Nat) {c d : Char} (hc : isBlank c = false)
    (hd : isBlank d = false) (cs : List Char) :
    ∃ word more, wordsFrom (start + c.utf8Size) (d :: cs) = (start + c.utf8Size, word) :: more ∧
      wordsFrom start (c :: d :: cs) = (start, c :: word) :: more := by
  have hhead : ∃ word more,
      wordsFrom (start + c.utf8Size) (d :: cs) = (start + c.utf8Size, word) :: more := by
    simp only [wordsFrom_cons, hd, Bool.false_eq_true, if_false]
    split
    · exact ⟨_, _, rfl⟩
    · split <;> exact ⟨_, _, rfl⟩
  obtain ⟨word, more, hrest⟩ := hhead
  refine ⟨word, more, hrest, ?_⟩
  rw [wordsFrom_cons]
  simp only [hc, Bool.false_eq_true, if_false, hrest, if_true]

/-- One word is found where it starts. -/
theorem wordsFrom_of_isWord (start : Nat) {w : List Char} (hw : IsWord w) :
    wordsFrom start w = [(start, w)] := by
  obtain ⟨hne, hblank⟩ := hw
  induction w generalizing start with
  | nil => exact absurd rfl hne
  | cons c w ih =>
    obtain ⟨hc, hw⟩ := List.forall_mem_cons.mp hblank
    cases w with
    | nil => exact wordsFrom_singleton start hc
    | cons d w =>
      obtain ⟨word, more, hrest, hword⟩ := wordsFrom_cons_cons start hc (hw d List.mem_cons_self) w
      rw [ih (start + c.utf8Size) (List.cons_ne_nil d w) hw] at hrest
      cases hrest
      exact hword

/-- A blank separates words, those behind it start behind it. -/
theorem wordsFrom_append_cons (start : Nat) (cs : List Char) {b : Char} (hb : isBlank b = true)
    (ds : List Char) :
    wordsFrom start (cs ++ b :: ds) =
      wordsFrom start cs ++ wordsFrom (start + byteLength (cs ++ [b])) ds := by
  induction cs generalizing start with
  | nil =>
    rw [List.nil_append, List.nil_append, wordsFrom_cons, if_pos hb]
    rfl
  | cons c cs ih =>
    have hrest := ih (start + c.utf8Size)
    rw [Nat.add_assoc] at hrest
    rw [List.cons_append, List.cons_append, byteLength_cons]
    cases hc : isBlank c with
    | true => simp only [wordsFrom_cons, hc, if_true, hrest]
    | false =>
      cases cs with
      | nil =>
        rw [List.nil_append, wordsFrom_cons_blank start hc hb, wordsFrom_singleton start hc]
        exact congrArg (List.cons _) hrest
      | cons d cs =>
        cases hd : isBlank d with
        | true =>
          rw [List.cons_append, wordsFrom_cons_blank start hc hd, wordsFrom_cons_blank start hc hd]
          exact congrArg (List.cons _) hrest
        | false =>
          obtain ⟨word, more, hnext, hword⟩ := wordsFrom_cons_cons start hc hd cs
          obtain ⟨word', more', hnext', hword'⟩ := wordsFrom_cons_cons start hc hd (cs ++ b :: ds)
          rw [List.cons_append, hnext', hnext, List.cons_append] at hrest
          obtain ⟨hfirst, rfl⟩ := List.cons.inj hrest
          obtain ⟨-, rfl⟩ := Prod.mk.inj hfirst
          rw [List.cons_append, hword', hword]
          rfl

/-- A text is empty, or a word, or two texts with a blank between them. -/
theorem blank_induction {motive : List Char → Prop} (nil : motive [])
    (word : ∀ w, IsWord w → motive w)
    (append : ∀ front b back, isBlank b = true → motive front → motive back →
      motive (front ++ b :: back)) (cs : List Char) : motive cs := by
  induction hlength : cs.length using Nat.strongRecOn generalizing cs with
  | ind n ih =>
    by_cases hblank : ∃ b ∈ cs, isBlank b = true
    · obtain ⟨b, hb, hblank⟩ := hblank
      obtain ⟨front, back, rfl⟩ := List.append_of_mem hb
      rw [List.length_append, List.length_cons] at hlength
      exact append front b back hblank (ih front.length (by omega) front rfl)
        (ih back.length (by omega) back rfl)
    · have hnone : ∀ c ∈ cs, isBlank c = false := fun c hc =>
        Bool.eq_false_iff.mpr fun htrue => hblank ⟨c, hc, htrue⟩
      cases cs with
      | nil => exact nil
      | cons c cs => exact word _ ⟨List.cons_ne_nil c cs, hnone⟩

/-! ## Runs -/

/-- Between what stands in front of it and behind it, the run is a word that cannot be made longer:
it ends at blanks, or where the text ends. -/
structure IsRun (front run back : List Char) : Prop where
  isWord : IsWord run
  front : ∀ c ∈ front.getLast?, isBlank c = true
  back : ∀ c ∈ back.head?, isBlank c = true

theorem IsRun.append_cons {front run back : List Char} (h : IsRun front run back) {b : Char}
    (hb : isBlank b = true) (ds : List Char) : IsRun front run (back ++ b :: ds) := by
  refine ⟨h.isWord, h.front, ?_⟩
  cases back with
  | nil => simpa using hb
  | cons c back => simpa using h.back

theorem IsRun.cons_append {front run back : List Char} (h : IsRun front run back) {b : Char}
    (hb : isBlank b = true) (cs : List Char) : IsRun (cs ++ b :: front) run back := by
  refine ⟨h.isWord, ?_, h.back⟩
  cases hlast : front.getLast? with
  | none => simpa [List.getLast?_cons, hlast] using hb
  | some c => simpa [List.getLast?_cons, hlast] using h.front

/-- What stands at a place where a word is found is a run. -/
theorem exists_isRun_of_mem_wordsFrom {cs run : List Char} {start pos : Nat}
    (h : (pos, run) ∈ wordsFrom start cs) :
    ∃ front back, cs = front ++ run ++ back ∧ pos = start + byteLength front ∧
      IsRun front run back := by
  induction cs using blank_induction generalizing start with
  | nil => cases h
  | word w hw =>
    rw [wordsFrom_of_isWord start hw] at h
    obtain ⟨rfl, rfl⟩ := Prod.mk.inj (List.mem_singleton.mp h)
    exact ⟨[], [], (List.append_nil run).symm, rfl, hw, by simp, by simp⟩
  | append cs b ds hb ihfront ihback =>
    rw [wordsFrom_append_cons start cs hb] at h
    rcases List.mem_append.mp h with h | h
    · obtain ⟨front, back, rfl, hpos, hrun⟩ := ihfront h
      exact ⟨front, back ++ b :: ds, by simp, hpos, hrun.append_cons hb ds⟩
    · obtain ⟨front, back, rfl, hpos, hrun⟩ := ihback h
      refine ⟨cs ++ b :: front, back, by simp, ?_, hrun.cons_append hb cs⟩
      rw [hpos, List.append_cons cs b front, byteLength_append (cs ++ [b]), Nat.add_assoc]

/-- Every run is found at its place. -/
theorem IsRun.mem_wordsFrom {front run back : List Char} (h : IsRun front run back) (start : Nat) :
    (start + byteLength front, run) ∈ wordsFrom start (front ++ run ++ back) := by
  have hrun : ∀ start, (start, run) ∈ wordsFrom start (run ++ back) := by
    intro start
    cases back with
    | nil =>
      rw [List.append_nil, wordsFrom_of_isWord start h.isWord]
      exact List.mem_singleton_self _
    | cons b back =>
      rw [wordsFrom_append_cons start run (h.back b rfl), wordsFrom_of_isWord start h.isWord]
      exact List.mem_cons_self
  rcases List.eq_nil_or_concat front with rfl | ⟨init, b, rfl⟩
  · exact hrun start
  · have hb : isBlank b = true := h.front b (by simp)
    rw [List.concat_eq_append, List.append_assoc, List.append_assoc, List.singleton_append,
      wordsFrom_append_cons start init hb]
    exact List.mem_append_right _ (hrun _)

/-- The words of a text are its runs, each found at its place. -/
theorem mem_wordsFrom_iff {cs run : List Char} {start pos : Nat} :
    (pos, run) ∈ wordsFrom start cs ↔
      ∃ front back, cs = front ++ run ++ back ∧ pos = start + byteLength front ∧
        IsRun front run back := by
  constructor
  · exact exists_isRun_of_mem_wordsFrom
  · rintro ⟨front, back, rfl, rfl, hrun⟩
    exact hrun.mem_wordsFrom start

/-- Words stand behind each other, with something between any two. -/
theorem pairwise_wordsFrom (start : Nat) (cs : List Char) :
    (wordsFrom start cs).Pairwise fun p q => p.1 + byteLength p.2 < q.1 := by
  induction cs using blank_induction generalizing start with
  | nil => exact List.Pairwise.nil
  | word w hw =>
    rw [wordsFrom_of_isWord start hw]
    exact List.pairwise_singleton _ _
  | append cs b ds hb ihfront ihback =>
    rw [wordsFrom_append_cons start cs hb]
    refine List.pairwise_append.mpr ⟨ihfront start, ihback _, ?_⟩
    intro p hp q hq
    obtain ⟨front, back, rfl, hpos, -⟩ := mem_wordsFrom_iff.mp hp
    have hle := le_of_mem_wordsFrom hq
    have hsize := b.utf8Size_pos
    simp only [byteLength_append, byteLength_cons, byteLength_nil] at hle
    omega

/-! ## Words alone -/

/-- Where a text starts does not matter for its words. -/
theorem map_snd_wordsFrom (start : Nat) (cs : List Char) :
    (wordsFrom start cs).map Prod.snd = words cs := by
  suffices general : ∀ s s', (wordsFrom s cs).map Prod.snd = (wordsFrom s' cs).map Prod.snd from
    general start 0
  induction cs using blank_induction with
  | nil => exact fun _ _ => rfl
  | word w hw =>
    intro s s'
    rw [wordsFrom_of_isWord s hw, wordsFrom_of_isWord s' hw]
    rfl
  | append front b back hb ihfront ihback =>
    intro s s'
    rw [wordsFrom_append_cons s front hb, wordsFrom_append_cons s' front hb, List.map_append,
      List.map_append, ihfront s s', ihback]

@[simp] theorem words_nil : words [] = [] := rfl

theorem words_cons_of_isBlank {c : Char} (hc : isBlank c = true) (cs : List Char) :
    words (c :: cs) = words cs := by
  rw [words, wordsFrom_cons]
  simp only [hc, if_true]
  exact map_snd_wordsFrom _ cs

theorem words_singleton {c : Char} (hc : isBlank c = false) : words [c] = [[c]] := by
  rw [words, wordsFrom_singleton 0 hc]
  rfl

theorem words_cons_blank {c b : Char} (hc : isBlank c = false) (hb : isBlank b = true)
    (cs : List Char) : words (c :: b :: cs) = [c] :: words (b :: cs) := by
  rw [words, wordsFrom_cons_blank 0 hc hb, List.map_cons, map_snd_wordsFrom]

theorem words_cons_cons {c d : Char} (hc : isBlank c = false) (hd : isBlank d = false)
    (cs : List Char) : ∃ word more, words (d :: cs) = word :: more ∧
      words (c :: d :: cs) = (c :: word) :: more := by
  obtain ⟨word, more, hrest, hword⟩ := wordsFrom_cons_cons 0 hc hd cs
  have hrest' := map_snd_wordsFrom (0 + c.utf8Size) (d :: cs)
  rw [hrest] at hrest'
  exact ⟨word, more.map Prod.snd, hrest'.symm, by rw [words, hword]; rfl⟩

theorem words_of_isWord {w : List Char} (hw : IsWord w) : words w = [w] := by
  rw [words, wordsFrom_of_isWord 0 hw]
  rfl

/-- A blank separates words. -/
theorem words_append_cons (cs : List Char) {b : Char} (hb : isBlank b = true) (ds : List Char) :
    words (cs ++ b :: ds) = words cs ++ words ds := by
  rw [words, wordsFrom_append_cons 0 cs hb, List.map_append, map_snd_wordsFrom, map_snd_wordsFrom]

/-- The words of a text are words, made of its characters. -/
theorem isWord_of_mem_words {cs w : List Char} (h : w ∈ words cs) : IsWord w ∧ w ⊆ cs := by
  obtain ⟨⟨pos, w⟩, hmem, rfl⟩ := List.mem_map.mp h
  obtain ⟨front, back, rfl, -, hrun⟩ := mem_wordsFrom_iff.mp hmem
  exact ⟨hrun.isWord, by simp⟩

theorem isWord_of_mem_wordsOf {text w : String} (h : w ∈ wordsOf text) : IsWord w.toList := by
  obtain ⟨chars, hchars, rfl⟩ := List.mem_map.mp h
  rw [String.toList_ofList]
  exact (isWord_of_mem_words hchars).1

theorem words_blank_append {front : List Char} (h : ∀ c ∈ front, isBlank c = true)
    (cs : List Char) : words (front ++ cs) = words cs := by
  induction front with
  | nil => rfl
  | cons c front ih =>
    obtain ⟨hc, hfront⟩ := List.forall_mem_cons.mp h
    rw [List.cons_append, words_cons_of_isBlank hc, ih hfront]

theorem words_append_blank (cs : List Char) {back : List Char}
    (h : ∀ c ∈ back, isBlank c = true) : words (cs ++ back) = words cs := by
  cases back with
  | nil => rw [List.append_nil]
  | cons b back =>
    obtain ⟨hb, hback⟩ := List.forall_mem_cons.mp h
    have hnone := words_blank_append hback []
    rw [List.append_nil] at hnone
    rw [words_append_cons cs hb, hnone]
    exact List.append_nil _

/-- What is not blank stands in a word. -/
theorem exists_mem_words (cs : List Char) :
    ∀ c ∈ cs, isBlank c = false → ∃ w ∈ words cs, c ∈ w := by
  induction cs using blank_induction with
  | nil => exact List.forall_mem_nil _
  | word w hw => exact fun c hc _ => ⟨w, by rw [words_of_isWord hw]; exact List.mem_cons_self, hc⟩
  | append front b back hb ihfront ihback =>
    rw [words_append_cons front hb]
    intro c hc hblank
    rcases List.mem_append.mp hc with hc | hc
    · obtain ⟨w, hw, hmem⟩ := ihfront c hc hblank
      exact ⟨w, List.mem_append_left _ hw, hmem⟩
    · rcases List.mem_cons.mp hc with rfl | hc
      · rw [hb] at hblank
        cases hblank
      · obtain ⟨w, hw, hmem⟩ := ihback c hc hblank
        exact ⟨w, List.mem_append_right _ hw, hmem⟩

/-! ## Words put together -/

theorem toList_intercalate_cons_cons (w v : String) (ws : List String) :
    (" ".intercalate (w :: v :: ws)).toList =
      w.toList ++ ' ' :: (" ".intercalate (v :: ws)).toList := by
  rw [String.intercalate_cons_cons, String.toList_append, String.toList_append,
    List.append_assoc]
  rfl

/-- Only spaces stand between the words. -/
theorem mem_toList_intercalate {ws : List String} {c : Char}
    (h : c ∈ (" ".intercalate ws).toList) : c = ' ' ∨ ∃ w ∈ ws, c ∈ w.toList := by
  induction ws with
  | nil => simp at h
  | cons w ws ih =>
    cases ws with
    | nil => exact .inr ⟨w, List.mem_cons_self, by simpa using h⟩
    | cons v ws =>
      rw [toList_intercalate_cons_cons, List.mem_append, List.mem_cons] at h
      rcases h with h | rfl | h
      · exact .inr ⟨w, List.mem_cons_self, h⟩
      · exact .inl rfl
      · exact (ih h).imp_right fun ⟨x, hx, hc⟩ => ⟨x, List.mem_cons_of_mem _ hx, hc⟩

theorem wordsOf_of_isWord {w : String} (h : IsWord w.toList) : wordsOf w = [w] := by
  rw [wordsOf, words_of_isWord h, List.map_singleton, String.ofList_toList]

theorem wordsOf_intercalate_cons_cons (w v : String) (ws : List String) :
    wordsOf (" ".intercalate (w :: v :: ws)) =
      wordsOf w ++ wordsOf (" ".intercalate (v :: ws)) := by
  rw [wordsOf, toList_intercalate_cons_cons, words_append_cons _ (by decide), List.map_append]
  rfl

/-- Words with spaces between them are found again. -/
theorem wordsOf_intercalate {ws : List String} (h : ∀ w ∈ ws, IsWord w.toList) :
    wordsOf (" ".intercalate ws) = ws := by
  induction ws with
  | nil => rfl
  | cons w ws ih =>
    have hw := wordsOf_of_isWord (h w List.mem_cons_self)
    cases ws with
    | nil => rw [String.intercalate_singleton, hw]
    | cons v ws =>
      rw [wordsOf_intercalate_cons_cons, hw, ih fun x hx => h x (List.mem_cons_of_mem _ hx)]
      rfl

end PlanConstraints.Text

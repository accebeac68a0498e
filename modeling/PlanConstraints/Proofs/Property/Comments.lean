import PlanConstraints.Proofs.Property.Origins

set_option autoImplicit false

/-!
# Comments in property files

Comment lines may be put into a property file at any place, in a block or between blocks, and the
file declares what it declared before (`read_withComments`): whatever the reader waits for, it skips
a comment and stays where it is.
-/

namespace PlanConstraints

namespace PropertyFile

/-! ## Comment lines -/

/-- The first character of the line that is not white space is the mark of comments. -/
def IsComment (line : List Char) : Prop := (Text.trimLeft line).head? = some '#'

/-- The lines of the second text are those of the first, with comments put between them.  Behind the
last line feed of a text there is nothing, or a comment. -/
inductive WithComments : List (List Char) → List (List Char) → Prop where
  | nil : WithComments [] []
  | line {lines lines' : List (List Char)} (line : List Char) (h : WithComments lines lines') :
      WithComments (line :: lines) (line :: lines')
  | comment {lines lines' : List (List Char)} {comment : List Char} (hcomment : IsComment comment)
      (h : WithComments lines lines') : WithComments lines (comment :: lines')
  | last {comment : List Char} (hcomment : IsComment comment) : WithComments [[]] [comment]

/-- The carriage return at the end of a comment does not matter. -/
theorem isComment_dropReturn {line : List Char} (h : IsComment line) :
    IsComment (Text.dropReturn line) := by
  unfold IsComment at h ⊢
  induction line using Text.dropReturn.induct with
  | case1 => exact h
  | case2 => cases h
  | case3 c hc => rwa [Text.dropReturn, if_neg hc]
  | case4 c d cs ih =>
    rw [Text.dropReturn]
    cases hblank : Text.isBlank c with
    | true =>
      simp only [Text.trimLeft, List.dropWhile_cons_of_pos hblank] at h ih ⊢
      exact ih h
    | false =>
      rw [Text.trimLeft_cons hblank] at h ⊢
      exact h

section

variable {w : World} {dialect : Dialect}

/-- A comment leaves the reader where it is. -/
theorem readLine_comment {line : Line} (h : IsComment line.text.toList) (s : State) :
    readLine w dialect s line = .ok s := by
  have hblank : line.isBlank = false := by
    rw [Bool.eq_false_iff]
    intro hblank
    have hnil : Text.trimLeft line.text.toList = [] :=
      List.dropWhile_eq_nil_iff.mpr (List.all_eq_true.mp hblank)
    rw [IsComment, hnil] at h
    cases h
  have hskipped : isSkipped line = true := by
    rw [isSkipped, line.piece.chars_trim, Text.head?_trim, Line.piece, h]
    exact Bool.or_true _
  rw [readLine_eq, hblank, hskipped]
  rfl

theorem readLine_ofComment {comment : List Char} (h : IsComment comment) (input : Input)
    (number start : Nat) (s : State) :
    readLine w dialect s ⟨input, number, start, String.ofList (Text.dropReturn comment)⟩ =
      .ok s := by
  refine readLine_comment ?_ s
  rw [String.toList_ofList]
  exact isComment_dropReturn h

/-! ## Whole files -/

/-- What a file declares that ends in this state, if it may end there. -/
def State.declared? (s : State) : Option PropertySet :=
  if s.place.missing?.isNone then some s.result.plain else none

theorem Place.isNone_missing?_plain (place : Place) :
    place.plain.missing?.isNone = place.missing?.isNone := by
  cases place with
  | classBody d block => cases block <;> rfl
  | _ => rfl

theorem State.declared?_congr {s s' : State} (hs : s.plain = s'.plain) :
    s.declared? = s'.declared? := by
  obtain ⟨hr, hplace⟩ := State.mk.inj hs
  rw [declared?, declared?, ← s.place.isNone_missing?_plain, hplace,
    s'.place.isNone_missing?_plain, hr]

theorem State.declared?_afterBlank (s : State) : s.afterBlank.declared? = s.declared? := by
  obtain ⟨r, place⟩ := s
  cases place <;> rfl

/-- Comments between the lines do not change where these lead to. -/
theorem sameUpTo_foldSteps {lines lines' : List (List Char)} (h : WithComments lines lines')
    {s s' : State} (hs : s.plain = s'.plain) (input input' : Input)
    (number number' start start' : Nat) :
    SameUpTo State.declared?
      (foldSteps (readLine w dialect) s (Line.ofPieces input number start lines))
      (foldSteps (readLine w dialect) s' (Line.ofPieces input' number' start' lines')) := by
  induction h generalizing s s' number number' start start' with
  | nil => exact sameUpTo_ok_iff.mpr (State.declared?_congr hs)
  | line line _ ih =>
    have hline : SameUpTo State.plain
        (readLine w dialect s ⟨input, number, start, String.ofList (Text.dropReturn line)⟩)
        (readLine w dialect s' ⟨input', number', start', String.ofList (Text.dropReturn line)⟩) :=
      sameUpTo_readLine hs rfl
    simp only [Line.ofPieces, foldSteps]
    obtain ⟨e, e', hread, hread'⟩ | ⟨u, u', hread, hread', hu⟩ := hline.cases
    · rw [hread, hread']
      rfl
    · rw [hread, hread']
      exact ih hu _ _ _ _
  | @comment lines lines' comment hcomment _ ih =>
    rw [Line.ofPieces, foldSteps, readLine_ofComment hcomment]
    exact ih hs _ _ _ _
  | @last comment hcomment =>
    have hblank : readLine w dialect s
        ⟨input, number, start, String.ofList (Text.dropReturn [])⟩ = .ok s.afterBlank :=
      readLine_eq w dialect s _
    simp only [Line.ofPieces, foldSteps, hblank, readLine_ofComment hcomment]
    rw [sameUpTo_ok_iff, State.declared?_afterBlank, State.declared?_congr hs]

/-- What a file declares is what it declares at its end. -/
theorem read_toOption (input : Input) :
    (read w dialect input).toOption.map PropertySet.plain =
      (foldSteps (readLine w dialect) ⟨.empty, .outside⟩ input.lines).toOption.bind
        State.declared? := by
  unfold read
  cases foldSteps (readLine w dialect) ⟨.empty, .outside⟩ input.lines with
  | error e => rfl
  | ok s =>
    simp only [Except.toOption, Option.bind_some, State.declared?]
    cases s.place.missing? <;> rfl

/-- A file and the file with comments are both refused, or they declare the same. -/
theorem sameUpTo_read {input input' : Input}
    (h : WithComments (Text.split '\n' input.text.toList) (Text.split '\n' input'.text.toList)) :
    SameUpTo PropertySet.plain (read w dialect input) (read w dialect input') := by
  have hlines : SameUpTo State.declared?
      (foldSteps (readLine w dialect) ⟨.empty, .outside⟩ input.lines)
      (foldSteps (readLine w dialect) ⟨.empty, .outside⟩ input'.lines) :=
    sameUpTo_foldSteps h rfl input input' 1 1 0 0
  unfold SameUpTo
  rw [read_toOption, read_toOption]
  obtain ⟨e, e', hread, hread'⟩ | ⟨s, s', hread, hread', hs⟩ := hlines.cases
  · rw [hread, hread']
    rfl
  · rw [hread, hread']
    exact hs

/-- Comments in a file that is accepted change nothing about what it declares.

Comments may stand between any two lines, also in blocks and behind the last line, whatever the
dialect and the types and objects.  `PropertySet.plain` leaves out only the places in the source,
which the comments do move. -/
theorem read_withComments {input input' : Input} {set : PropertySet}
    (h : WithComments (Text.split '\n' input.text.toList) (Text.split '\n' input'.text.toList))
    (hread : read w dialect input = .ok set) :
    ∃ set', read w dialect input' = .ok set' ∧ set'.plain = set.plain :=
  (sameUpTo_read h).exists_ok hread

end

def uncommented : Input :=
  .ofText ("set m 1\nmove *\npropertyclass go(t) \x7b\nproperty p\n! m\n\x7d \x7b\ngo(a)\n\x7d\n"
    ++ "soft-goals\nx\n")

/-- Comments inside of all blocks, and one behind the last line. -/
def commented : Input :=
  .ofText ("set m 1\n # set\nmove *\npropertyclass go(t) \x7b\n#\nproperty p\n#\n! m\n\x7d \x7b\n"
    ++ "#\ngo(a)\n\x7d\nsoft-goals\n#\nx\n\t#end")

theorem read_withComments_commented :
    ∃ set set', read .empty .actionSets uncommented = .ok set ∧
      read .empty .actionSets commented = .ok set' ∧ set'.plain = set.plain ∧
      set'.softGoals = ["x"] := by
  have hsplit : Text.split '\n' uncommented.text.toList =
      ["set m 1", "move *", "propertyclass go(t) \x7b", "property p", "! m", "\x7d \x7b", "go(a)",
        "\x7d", "soft-goals", "x", ""].map String.toList := by decide +kernel
  have hsplit' : Text.split '\n' commented.text.toList =
      ["set m 1", " # set", "move *", "propertyclass go(t) \x7b", "#", "property p", "#", "! m",
        "\x7d \x7b", "#", "go(a)", "\x7d", "soft-goals", "#", "x", "\t#end"].map String.toList := by
    decide +kernel
  have hlines : WithComments (Text.split '\n' uncommented.text.toList)
      (Text.split '\n' commented.text.toList) := by
    rw [hsplit, hsplit']
    exact .line _ <| .comment rfl <| .line _ <| .line _ <| .comment rfl <| .line _ <|
      .comment rfl <| .line _ <| .line _ <| .comment rfl <| .line _ <| .line _ <| .line _ <|
      .comment rfl <| .line _ <| .last rfl
  obtain ⟨set, hset⟩ : ∃ set, read .empty .actionSets uncommented = .ok set :=
    exists_of_isOk (by decide +kernel)
  obtain ⟨set', hset', hsame⟩ := read_withComments hlines hset
  have hgoals : (read .empty .actionSets uncommented).toOption.map PropertySet.softGoals =
      some ["x"] := by decide +kernel
  rw [hset] at hgoals
  refine ⟨set, set', hset, hset', hsame, ?_⟩
  exact (congrArg PropertySet.softGoals hsame).trans (Option.some.inj hgoals)

end PropertyFile

end PlanConstraints

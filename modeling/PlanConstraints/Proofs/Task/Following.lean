import PlanConstraints.Proofs.Task.NumberLines

set_option autoImplicit false

/-!
# Following readers

What a reader does is decided by the texts of the lines that it takes.  Whatever it finds, it finds
it in lines of the same texts everywhere, and misses a line where the last of them are cut off
(`Taken`); a negative number where none may be is refused (`Followed`).  The lines that a reader
takes have the forms of what it finds (`Follows`), those of a task the forms of the task
(`follows_taskParts`).
-/

namespace PlanConstraints

/-! ## Places that are checked -/

theorem Effect.exists_form (e : Effect) :
    ∃ ns, e.form = .numbers ns ∧ ns.length = 2 * e.conditions.length + 4 := by
  refine ⟨_, rfl, ?_⟩
  simp [Fact.numerals, changeNumerals, Nat.mul_comm]

namespace LineForm

/-- In lines of the form the number at the place may not be negative, and this is found out when
that many further lines have been read.  The variables and values of an effect are checked at once,
those of the change of a rule behind the line that ends the rule. -/
inductive Checked : LineForm → Nat → Nat → Prop where
  | effect (e : Effect) {place : Nat} (hcount : place ≠ 0)
    (hpre : place ≠ 2 * e.conditions.length + 2) (hplace : place < 2 * e.conditions.length + 4) :
    Checked e.form place 0
  | change (var post : Nat) (pre : Option Nat) {place : Nat} (h : place = 0 ∨ place = 2) :
    Checked (.numbers (changeNumerals var pre post)) place 1

/-- No number of such lines is checked. -/
def Unchecked (form : LineForm) : Prop := ∀ place late, ¬ form.Checked place late

/-- The text found is a given text, a line of the form, with a negative number in a place that is
checked.  The line so many lines below is at fault; for a number that does not have the width of its
field it is the line itself. -/
inductive Negated (form : LineForm) (text found : String) : Nat → Prop where
  | mk {place late : Nat} {word : String} {n : Int} (hchecked : form.Checked place late)
    (hword : Text.Spells word n) (hneg : n < 0)
    (hfound : Text.wordsOf found = (Text.wordsOf text).set place word) :
    Negated form text found (if -2 ^ 63 ≤ n then late else 0)

theorem Checked.exists_numbers {form : LineForm} {place late : Nat} (h : form.Checked place late) :
    ∃ ns, form = .numbers ns ∧ (ns.length = 3 ∧ late = 1 ∧ (place = 0 ∨ place = 2) ∨
      4 ≤ ns.length ∧ late = 0 ∧ place ≠ 0 ∧ place + 2 ≠ ns.length ∧ place < ns.length) := by
  cases h with
  | effect e hcount hpre hplace =>
    obtain ⟨ns, hform, hlength⟩ := e.exists_form
    exact ⟨ns, hform, .inr (by omega)⟩
  | change var post pre h => exact ⟨_, rfl, .inl ⟨rfl, rfl, h⟩⟩

theorem unchecked_name (text : String) : (name text).Unchecked := by
  intro place late h
  obtain ⟨ns, hform, -⟩ := h.exists_numbers
  cases hform

theorem unchecked_numbers {ns : List Numeral} (h : ns.length < 3) : (numbers ns).Unchecked := by
  intro place late hchecked
  obtain ⟨ns', hform, hlength⟩ := hchecked.exists_numbers
  cases hform
  omega

theorem unchecked_int (n : Int) : (int n).Unchecked := unchecked_numbers (by simp)

end LineForm

/-! ## Errors and lines -/

namespace TaskFile

/-- The line at which an error points. -/
def FileError.line? : FileError → Option Line
  | endOfFile _ line | negative _ line => line
  | expected _ line | unsupportedVersion line | trailing line => some line
  | inconsistent _ => none

theorem FileError.span_toMessage (e : FileError) :
    e.toMessage.fault.map Note.span = e.line?.map Line.span := by
  cases e with
  | endOfFile what line | negative what line => cases line <;> rfl
  | expected what line | unsupportedVersion line | trailing line => rfl
  | inconsistent error => rfl

namespace Reader

variable {α β : Type}

/-- The reader fails with an error that points at the line. -/
def FailsAt (r : Reader α) (p : Position) (l : Line) : Prop :=
  ∃ e, r p = .error e ∧ e.line? = some l

theorem bind_of_ok {r : Reader α} {next : α → Reader β} {p p' : Position} {a : α}
    (h : r p = .ok (a, p')) : (r >>= next) p = next a p' := by
  change Reader.bind r next p = _
  rw [Reader.bind, h]

theorem bind_of_error {r : Reader α} {next : α → Reader β} {p : Position} {e : FileError}
    (h : r p = .error e) : (r >>= next) p = .error e := by
  change Reader.bind r next p = _
  rw [Reader.bind, h]

/-- What was read one after the other. -/
theorem exists_of_bind {r : Reader α} {next : α → Reader β} {p p' : Position} {b : β}
    (h : (r >>= next) p = .ok (b, p')) :
    ∃ a p'', r p = .ok (a, p'') ∧ next a p'' = .ok (b, p') := by
  cases hfirst : r p with
  | error e =>
    rw [bind_of_error hfirst] at h
    cases h
  | ok found =>
    rw [bind_of_ok hfirst] at h
    exact ⟨found.1, found.2, rfl, h⟩

theorem bind_assoc {γ : Type} (r : Reader α) (next : α → Reader β) (last : β → Reader γ) :
    (r >>= next) >>= last = r >>= fun a => next a >>= last := by
  funext p
  cases hfirst : r p with
  | error e => rw [bind_of_error (bind_of_error hfirst), bind_of_error hfirst]
  | ok found =>
    rw [bind_of_ok hfirst]
    cases hsecond : next found.1 found.2 with
    | error e => rw [bind_of_error hsecond, bind_of_error ((bind_of_ok hfirst).trans hsecond)]
    | ok found' => rw [bind_of_ok hsecond, bind_of_ok ((bind_of_ok hfirst).trans hsecond)]

theorem pure_bind (a : α) (next : α → Reader β) : Reader.pure a >>= next = next a := rfl

theorem FailsAt.bind {r : Reader α} {next : α → Reader β} {p : Position} {l : Line}
    (h : r.FailsAt p l) : (r >>= next).FailsAt p l := by
  obtain ⟨e, he, hline⟩ := h
  exact ⟨e, bind_of_error he, hline⟩

theorem FailsAt.behind {r : Reader α} {next : α → Reader β} {p p' : Position} {a : α} {l : Line}
    (h : (next a).FailsAt p' l) (hfirst : r p = .ok (a, p')) : (r >>= next).FailsAt p l := by
  obtain ⟨e, he, hline⟩ := h
  exact ⟨e, (bind_of_ok hfirst).trans he, hline⟩

/-! ## Missing lines -/

/-- Where the last ones of lines of the given texts are cut off, the reader misses them: it finds
the end of the file. -/
def Needs (r : Reader α) (texts : List String) : Prop :=
  ∀ (lines : List Line) (previous : Option Line) (cut : List String),
    lines.map Line.trimmed ++ cut = texts → cut ≠ [] →
      ∃ what, r ⟨previous, lines⟩ = .error (.endOfFile what (lines.getLast?.or previous))

theorem needs_nil (r : Reader α) : Needs r [] := by
  intro lines previous cut hlines hcut
  exact absurd (List.append_eq_nil_iff.mp hlines).2 hcut

theorem Needs.bind {r : Reader α} {next : α → Reader β} {texts texts' : List String} {a : α}
    (h : Needs r texts) (hreads : Reads r texts a) (hnext : Needs (next a) texts') :
    Needs (r >>= next) (texts ++ texts') := by
  intro lines previous cut hlines hcut
  -- The cut is behind what the first reader takes, or in it.
  have hbehind : ∀ back, lines.map Line.trimmed = texts ++ back → back ++ cut = texts' →
      ∃ what, (r >>= next) ⟨previous, lines⟩ =
        .error (.endOfFile what (lines.getLast?.or previous)) := by
    intro back hmap hback
    obtain ⟨front, more, rfl, hfront, rfl⟩ := List.map_eq_append_iff.mp hmap
    obtain ⟨what, hwhat⟩ := hnext more (front.getLast?.or previous) cut hback hcut
    refine ⟨what, ?_⟩
    rw [bind_of_ok (hreads front more previous hfront), hwhat, List.getLast?_append,
      Option.or_assoc]
  rcases List.append_eq_append_iff.mp hlines with ⟨missing, htexts, hcut'⟩ | ⟨back, hmap, hback⟩
  · by_cases hmissing : missing = []
    · rw [hmissing, List.append_nil] at htexts
      rw [hmissing, List.nil_append] at hcut'
      exact hbehind [] (by rw [htexts, List.append_nil]) hcut'
    · obtain ⟨what, hwhat⟩ := h lines previous missing htexts.symm hmissing
      exact ⟨what, bind_of_error hwhat⟩
  · exact hbehind back hmap hback.symm

/-- A line is missed before all that is read behind it. -/
theorem Needs.line {expected text : String} {next : Line → Reader β} {texts : List String}
    (h : ∀ l, l.trimmed = text → Needs (next l) texts) :
    Needs (line expected >>= next) (text :: texts) := by
  intro lines previous cut hlines hcut
  cases lines with
  | nil => exact ⟨expected, rfl⟩
  | cons l lines =>
    obtain ⟨hl, hmore⟩ := List.cons.inj hlines
    rw [getLast?_cons_or]
    exact h l hl lines (some l) cut hmore hcut

theorem needs_parsed (expected : String) {parse : String → Option α} {text : String} {a : α}
    (h : parse text = some a) : Needs (parsed expected parse) [text] := by
  apply Needs.line
  intro l hl
  simp only [hl, h]
  exact needs_nil _

/-! ## Negative numbers -/

/-- Where lines of the given texts and forms have a negative number in a place that is checked, the
reader fails at the line that is at fault. -/
def Refuses (r : Reader α) (texts : List String) (forms : List LineForm) : Prop :=
  ∀ ⦃i : Nat⦄ ⦃form : LineForm⦄ ⦃text found : String⦄ ⦃late : Nat⦄, forms[i]? = some form →
    texts[i]? = some text → form.Negated text found late →
      ∀ (lines rest : List Line) (previous : Option Line),
        lines.map Line.trimmed = texts.set i found →
          ∃ l, lines[i + late]? = some l ∧ r.FailsAt ⟨previous, lines ++ rest⟩ l

theorem refuses_of_unchecked {r : Reader α} {texts : List String} {forms : List LineForm}
    (h : ∀ form ∈ forms, form.Unchecked) : Refuses r texts forms := by
  intro i form text found late hform _ hnegated
  obtain ⟨hchecked, -, -, -⟩ := hnegated
  exact absurd hchecked (h form (List.mem_of_getElem? hform) _ _)

theorem Refuses.bind {r : Reader α} {next : α → Reader β} {texts texts' : List String}
    {forms forms' : List LineForm} {a : α} (hlength : forms.length = texts.length)
    (h : Refuses r texts forms) (hreads : Reads r texts a)
    (hnext : Refuses (next a) texts' forms') :
    Refuses (r >>= next) (texts ++ texts') (forms ++ forms') := by
  intro i form text found late hform htext hnegated lines rest previous hlines
  by_cases hi : i < texts.length
  · rw [List.getElem?_append_left (hlength.symm ▸ hi)] at hform
    rw [List.getElem?_append_left hi] at htext
    rw [List.set_append_left _ _ hi] at hlines
    obtain ⟨front, back, rfl, hfront, -⟩ := List.map_eq_append_iff.mp hlines
    obtain ⟨l, hl, hfails⟩ := h hform htext hnegated front (back ++ rest) previous hfront
    refine ⟨l, ?_, ?_⟩
    · rw [List.getElem?_append_left (List.getElem?_eq_some_iff.mp hl).1, hl]
    · rw [List.append_assoc]
      exact hfails.bind
  · have hle : texts.length ≤ i := Nat.le_of_not_lt hi
    rw [List.getElem?_append_right (hlength.symm ▸ hle), hlength] at hform
    rw [List.getElem?_append_right hle] at htext
    rw [List.set_append_right _ _ hle] at hlines
    obtain ⟨front, back, rfl, hfront, hback⟩ := List.map_eq_append_iff.mp hlines
    obtain ⟨l, hl, hfails⟩ :=
      hnext hform htext hnegated back rest (front.getLast?.or previous) hback
    have hlength' : front.length = texts.length := by rw [← hfront, List.length_map]
    refine ⟨l, ?_, ?_⟩
    · rw [List.getElem?_append_right (by omega), hlength', ← hl]
      congr 1
      omega
    · rw [List.append_assoc]
      exact hfails.behind (hreads front (back ++ rest) previous hfront)

/-! ## Following -/

/-- The reader takes lines of the given texts, spellings of the forms, for `a`, and cannot do
without any of the last ones. -/
structure Taken (r : Reader α) (texts : List String) (forms : List LineForm) (a : α) : Prop where
  spelled : List.Forall₂ (fun form text => form.SpelledBy text) forms texts
  reads : Reads r texts a
  needs : Needs r texts

/-- The reader also refuses negative numbers in these lines where they are checked. -/
structure Followed (r : Reader α) (texts : List String) (forms : List LineForm) (a : α) : Prop
    extends Taken r texts forms a where
  refuses : Refuses r texts forms

theorem Taken.pure (a : α) : Taken (Reader.pure a) [] [] a where
  spelled := .nil
  reads := .pure a
  needs := needs_nil _

theorem Taken.bind {r : Reader α} {next : α → Reader β} {texts texts' : List String}
    {forms forms' : List LineForm} {a : α} {b : β} (h : Taken r texts forms a)
    (hnext : Taken (next a) texts' forms' b) :
    Taken (r >>= next) (texts ++ texts') (forms ++ forms') b where
  spelled := List.rel_append h.spelled hnext.spelled
  reads := h.reads.bind hnext.reads
  needs := h.needs.bind h.reads hnext.needs

theorem taken_parsed (expected : String) {parse : String → Option α} {text : String} {a : α}
    {form : LineForm} (h : parse text = some a) (hform : form.SpelledBy text) :
    Taken (parsed expected parse) [text] [form] a where
  spelled := .cons hform .nil
  reads := reads_parsed expected h
  needs := needs_parsed expected h

/-- Whatever the reader finds, it is followed on the lines that it takes, and `P` holds of what is
found and the forms of these lines. -/
def Follows (r : Reader α) (P : α → List LineForm → Prop) : Prop :=
  ∀ (p p' : Position) (a : α), r p = .ok (a, p') → ∃ (lines : List Line) (forms : List LineForm),
    p.rest = lines ++ p'.rest ∧ Followed r (lines.map Line.trimmed) forms a ∧ P a forms

theorem Follows.pure {P : α → List LineForm → Prop} {a : α} (h : P a []) :
    Follows (Reader.pure a) P := by
  intro p p' a' hread
  cases hread
  exact ⟨[], [], rfl, ⟨.pure a, refuses_of_unchecked (by simp)⟩, h⟩

theorem Follows.bind {P : α → List LineForm → Prop} {Q : β → List LineForm → Prop} {r : Reader α}
    {next : α → Reader β} (h : Follows r P)
    (hnext : ∀ a forms, P a forms → Follows (next a) fun b more => Q b (forms ++ more)) :
    Follows (r >>= next) Q := by
  intro p p' b hread
  obtain ⟨a, p'', hfirst, hsecond⟩ := exists_of_bind hread
  obtain ⟨front, forms, hrest, hfront, ha⟩ := h p p'' a hfirst
  obtain ⟨back, more, hrest', hback, hb⟩ := hnext a forms ha p'' p' b hsecond
  refine ⟨front ++ back, forms ++ more, ?_, ?_, hb⟩
  · rw [hrest, hrest', List.append_assoc]
  · rw [List.map_append]
    exact ⟨hfront.toTaken.bind hback.toTaken,
      hfront.refuses.bind hfront.spelled.length_eq hfront.reads hback.refuses⟩

theorem Follows.imp {P Q : α → List LineForm → Prop} {r : Reader α} (h : Follows r P)
    (hPQ : ∀ a forms, P a forms → Q a forms) : Follows r Q := by
  intro p p' a hread
  obtain ⟨lines, forms, hrest, hlines, ha⟩ := h p p' a hread
  exact ⟨lines, forms, hrest, hlines, hPQ a forms ha⟩

theorem exists_of_line {expected : String} {p p' : Position} {l : Line}
    (h : line expected p = .ok (l, p')) : p.rest = l :: p'.rest ∧ p'.previous = some l := by
  unfold line at h
  split at h
  · cases h
  · next hrest =>
    cases h
    exact ⟨hrest, rfl⟩

theorem exists_of_parsed {expected : String} {parse : String → Option α} {p p' : Position} {a : α}
    (h : parsed expected parse p = .ok (a, p')) :
    ∃ l, p.rest = l :: p'.rest ∧ p'.previous = some l ∧ parse l.trimmed = some a := by
  obtain ⟨l, p'', hline, hparse⟩ := exists_of_bind h
  obtain ⟨hrest, hprevious⟩ := exists_of_line hline
  refine ⟨l, ?_⟩
  cases ha : parse l.trimmed with
  | none =>
    simp only [ha] at hparse
    cases hparse
  | some a' =>
    simp only [ha] at hparse
    cases hparse
    exact ⟨hrest, hprevious, rfl⟩

theorem parsed_of_none {expected : String} {parse : String → Option α} {l : Line}
    (h : parse l.trimmed = none) (previous : Option Line) (rest : List Line) :
    (parsed expected parse).FailsAt ⟨previous, l :: rest⟩ l := by
  have hline : line expected ⟨previous, l :: rest⟩ = .ok (l, ⟨some l, rest⟩) := rfl
  refine ⟨.expected expected l, (bind_of_ok hline).trans ?_, rfl⟩
  simp only [h]

/-- The form of a line that is read by a function of its text. -/
theorem follows_parsed (expected : String) {parse : String → Option α} {form : α → LineForm}
    (h : ∀ text a, parse text = some a → (form a).SpelledBy text)
    (hunchecked : ∀ a, (form a).Unchecked) :
    Follows (parsed expected parse) fun a forms => forms = [form a] := by
  intro p p' a hread
  obtain ⟨l, hrest, -, ha⟩ := exists_of_parsed hread
  refine ⟨[l], [form a], hrest, ⟨taken_parsed expected ha (h _ a ha), ?_⟩, rfl⟩
  apply refuses_of_unchecked
  intro form' hform
  rw [List.mem_singleton.mp hform]
  exact hunchecked a

theorem follows_keyword (word : String) :
    Follows (keyword word) fun _ forms => forms = [.name word] := by
  refine follows_parsed _ (fun text a hparse => ?_) fun _ => LineForm.unchecked_name word
  split at hparse
  · next heq => exact heq ▸ .name
  · cases hparse

theorem follows_text (expected : String) :
    Follows (text expected) fun name forms => forms = [.name name] :=
  follows_parsed _ (fun _ _ heq => Option.some.inj heq ▸ .name) LineForm.unchecked_name

theorem follows_natural (expected : String) :
    Follows (natural expected) fun n forms => forms = [.int n] :=
  follows_parsed _ (fun _ _ hread =>
    LineForm.spelledBy_singleton (.int (Text.spells_of_natural? hread)))
      fun n => LineForm.unchecked_int n

theorem follows_integer (expected : String) (bits : Nat) :
    Follows (parsed expected (Text.integer? bits)) fun n forms => forms = [.int n] :=
  follows_parsed _ (fun _ _ hread =>
    LineForm.spelledBy_singleton (.int (Text.spells_of_integer? hread))) LineForm.unchecked_int

/-- A number of which only counts whether it is zero. -/
theorem follows_flag (expected : String) (bits : Nat) :
    Follows (parsed expected (Text.natural? bits))
      fun n forms => forms = [.numbers [.flag (n != 0)]] :=
  follows_parsed _ (fun _ _ hread =>
    LineForm.spelledBy_singleton (.flag (Text.spells_of_natural? hread)))
      fun _ => LineForm.unchecked_numbers (by simp)

/-- One thing below the other. -/
theorem follows_times {r : Reader α} {f : α → List LineForm}
    (h : Follows r fun a forms => forms = f a) (n : Nat) :
    Follows (times r n) fun as forms => as.length = n ∧ forms = as.flatMap f := by
  induction n with
  | zero => exact .pure ⟨rfl, rfl⟩
  | succ n ih =>
    refine h.bind ?_
    rintro a _ rfl
    refine ih.bind ?_
    rintro as _ ⟨rfl, rfl⟩
    exact .pure ⟨rfl, by rw [List.append_nil, List.flatMap_cons]⟩

/-- Each thing is on a line of its own. -/
theorem follows_times_lines {r : Reader α} {f : α → LineForm}
    (h : Follows r fun a forms => forms = [f a]) (n : Nat) :
    Follows (times r n) fun as forms => as.length = n ∧ forms = as.map f :=
  (follows_times h n).imp fun _ _ hforms => ⟨hforms.1, hforms.2.trans List.map_eq_flatMap.symm⟩

theorem follows_nonNegative (what : String) (n : Int) :
    Follows (nonNegative what n) fun m forms => (m : Int) = n ∧ forms = [] := by
  intro p p' m hread
  unfold nonNegative at hread
  split at hread
  · cases hread
  · next hnonneg =>
    cases hread
    have hcast : (n.toNat : Int) = n := Int.toNat_of_nonneg (by omega)
    have hreads : Reads (nonNegative what n) [] n.toNat := by
      have := reads_nonNegative what n.toNat
      rwa [hcast] at this
    exact ⟨[], [], rfl, ⟨⟨.nil, hreads, needs_nil _⟩, refuses_of_unchecked (by simp)⟩, hcast, rfl⟩

end Reader

end TaskFile

end PlanConstraints

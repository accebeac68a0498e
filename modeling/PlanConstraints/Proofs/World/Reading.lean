import PlanConstraints.Proofs.SExpr.Reading
import PlanConstraints.Proofs.World.Order
import PlanConstraints.World.Declarations

set_option autoImplicit false

/-!
# What a domain and a problem declare

Reading a domain and a problem comes to the same as declaring, one after the other, the types and
objects that their sections name (`ofInputs_eq_ok_iff`).  Names wait for the type behind their
group; those without one are of the root type.  Sections of other kinds declare nothing.
-/

namespace PlanConstraints

namespace World

open SExpr (Tree)

/-! ## Declarations up to a conflict -/

/-- Carries out a declaration that must not conflict with an earlier one. -/
def add? (w : World) (d : Declaration) : Option World :=
  match w.add d with
  | (w, none) => some w
  | (_, some _) => none

/-- Carries out declarations one after the other, up to the first conflict. -/
def addAll? (w : World) (ds : List Declaration) : Option World := ds.foldlM add? w

theorem add?_eq_some_iff {w w' : World} {d : Declaration} :
    w.add? d = some w' ↔ (w.add d).2 = none ∧ w' = (w.add d).1 := by
  unfold add?
  split
  · next hadd => simp [hadd, eq_comm]
  · next hadd => simp [hadd]

@[simp] theorem addAll?_nil (w : World) : w.addAll? [] = some w := rfl

theorem addAll?_cons (w : World) (d : Declaration) (ds : List Declaration) :
    w.addAll? (d :: ds) = (w.add? d).bind (addAll? · ds) := List.foldlM_cons

theorem addAll?_append (w : World) (ds ds' : List Declaration) :
    w.addAll? (ds ++ ds') = (w.addAll? ds).bind (addAll? · ds') := List.foldlM_append

theorem accepted_concat {ds : List Declaration} {d : Declaration} :
    Accepted (ds ++ [d]) ↔ Accepted ds ∧ ((after ds).add d).2 = none := by
  constructor
  · intro h
    exact ⟨fun seen d' hseen => h seen d' (hseen.trans (List.prefix_append ..)),
      h ds d List.prefix_rfl⟩
  · rintro ⟨hds, hd⟩ seen d' hseen
    obtain hall | hseen := List.prefix_concat_iff.mp hseen
    · obtain ⟨rfl, hd'⟩ := List.append_inj' hall rfl
      cases hd'
      exact hd
    · exact hds seen d' hseen

/-- Declarations can all be carried out if none conflicts with an earlier one. -/
theorem addAll?_empty_eq_some_iff {ds : List Declaration} {w : World} :
    empty.addAll? ds = some w ↔ Accepted ds ∧ w = after ds := by
  induction ds using List.reverseRecOn generalizing w with
  | nil =>
    have haccepted : Accepted [] := fun seen d hseen => by simp at hseen
    simp [haccepted, eq_comm]
  | append_singleton ds d ih =>
    have hlast (u : World) : u.addAll? [d] = u.add? d := by simp [addAll?_cons]
    simp only [addAll?_append, Option.bind_eq_some_iff, ih, hlast, add?_eq_some_iff,
      accepted_concat, after_concat]
    constructor
    · rintro ⟨_, ⟨hds, rfl⟩, hd, rfl⟩
      exact ⟨⟨hds, hd⟩, rfl⟩
    · rintro ⟨⟨hds, hd⟩, rfl⟩
      exact ⟨_, ⟨hds, rfl⟩, hd, rfl⟩

/-! ## Names in groups -/

/-- Names in groups, each of one type, and names without a type behind the last group.  No name is
the hyphen that stands in front of a type. -/
structure TypedNames where
  groups : List (List String × String)
  untyped : List String
  groups_ne : ∀ group ∈ groups, "-" ∉ group.1
  untyped_ne : "-" ∉ untyped

/-- A group as it is written. -/
def groupTrees (group : List String × String) : List Tree :=
  group.1.map .atom ++ [.atom "-", .atom group.2]

namespace TypedNames

/-- The names as they are written. -/
def trees (names : TypedNames) : List Tree :=
  names.groups.flatMap groupTrees ++ names.untyped.map .atom

/-- The names in textual order, each with its type. -/
def entries (names : TypedNames) : List (String × String) :=
  names.groups.flatMap (fun group => group.1.map fun name => (name, group.2)) ++
    names.untyped.map fun name => (name, topType)

end TypedNames

/-- Atoms are read from atoms. -/
theorem exists_symbols {es : List SExpr} {names : List String}
    (h : es.map SExpr.tree = names.map Tree.atom) :
    ∃ syms : List Symbol, es = syms.map SExpr.atom ∧ syms.map Symbol.name = names := by
  induction names generalizing es with
  | nil =>
    obtain rfl := List.map_eq_nil_iff.mp h
    exact ⟨[], rfl, rfl⟩
  | cons name names ih =>
    obtain ⟨e, es, rfl, he, hes⟩ := List.map_eq_cons_iff.mp h
    obtain ⟨s, rfl, rfl⟩ := SExpr.tree_eq_atom_iff.mp he
    obtain ⟨syms, rfl, rfl⟩ := ih hes
    exact ⟨s :: syms, rfl, rfl⟩

section

variable (list : Span)

theorem typedNames_name {s : Symbol} (hs : s.name ≠ "-") (group : List Symbol) (es : List SExpr) :
    typedNames list group (.atom s :: es) = typedNames list (group ++ [s]) es := by
  rw [typedNames.eq_def]
  simp only [if_neg hs]

/-- Names wait for their type. -/
theorem typedNames_append {syms : List Symbol} (hsyms : "-" ∉ syms.map Symbol.name)
    (group : List Symbol) (es : List SExpr) :
    typedNames list group (syms.map SExpr.atom ++ es) = typedNames list (group ++ syms) es := by
  induction syms generalizing group with
  | nil => rw [List.map_nil, List.nil_append, List.append_nil]
  | cons s syms ih =>
    rw [List.map_cons, List.mem_cons, not_or] at hsyms
    rw [List.map_cons, List.cons_append, typedNames_name list (Ne.symm hsyms.1), ih hsyms.2,
      List.append_assoc, List.singleton_append]

/-- The names that are read, each with its type, are those that are written. -/
theorem exists_typedNames (names : TypedNames) {es : List SExpr}
    (h : es.map SExpr.tree = names.trees) :
    ∃ typed, typedNames list [] es = .ok typed ∧
      typed.map (fun entry => (entry.1.name, entry.2)) = names.entries := by
  obtain ⟨groups, untyped, hgroups, huntyped⟩ := names
  simp only [TypedNames.trees, TypedNames.entries] at h ⊢
  induction groups generalizing es with
  | nil =>
    obtain ⟨syms, rfl, rfl⟩ := exists_symbols h
    refine ⟨syms.map fun s => (s, topType), ?_, by simp⟩
    have hread := typedNames_append list huntyped [] []
    rw [List.append_nil, List.nil_append] at hread
    rw [hread, typedNames]
  | cons group groups ih =>
    obtain ⟨hgroup, hgroups⟩ := List.forall_mem_cons.mp hgroups
    simp only [List.flatMap_cons, groupTrees, List.append_assoc, List.cons_append,
      List.nil_append] at h ⊢
    obtain ⟨front, back, rfl, hfront, hback⟩ := List.map_eq_append_iff.mp h
    obtain ⟨syms, rfl, hsyms⟩ := exists_symbols hfront
    obtain ⟨hyphen, back, rfl, hhyphen, hback⟩ := List.map_eq_cons_iff.mp hback
    obtain ⟨type, more, rfl, htype, hmore⟩ := List.map_eq_cons_iff.mp hback
    obtain ⟨hyphen, rfl, hname⟩ := SExpr.tree_eq_atom_iff.mp hhyphen
    obtain ⟨type, rfl, hsecond⟩ := SExpr.tree_eq_atom_iff.mp htype
    obtain ⟨typed, htyped, hentries⟩ := ih hgroups hmore
    rw [← hsyms] at hgroup ⊢
    refine ⟨syms.map (fun s => (s, type.name)) ++ typed, ?_, ?_⟩
    · rw [typedNames_append list hgroup, List.nil_append, typedNames, if_pos hname]
      simp only [htyped]
    · rw [List.map_append, hentries, List.map_map, List.map_map, ← hsecond]
      rfl

end

/-! ## Sections -/

/-- A section of a domain or a problem.  A section of another kind starts with an atom. -/
inductive Section where
  | types (names : TypedNames)
  | constants (names : TypedNames)
  | objects (names : TypedNames)
  | other (key : String) (items : List Tree) (hkey : key ∉ [":types", ":constants", ":objects"])

namespace Section

/-- The section as it is written. -/
def tree : Section → Tree
  | types names => .list (.atom ":types" :: names.trees)
  | constants names => .list (.atom ":constants" :: names.trees)
  | objects names => .list (.atom ":objects" :: names.trees)
  | other key items _ => .list (.atom key :: items)

/-- What the section declares, in textual order. -/
def declarations : Section → List Declaration
  | types names => names.entries.map fun (name, parent) => .type name (some parent)
  | constants names | objects names =>
    names.entries.map fun (name, type) => .object (.ofName name) type
  | other _ _ _ => []

end Section

/-- What sections declare, in textual order. -/
def declarationsOf (sections : List Section) : List Declaration :=
  sections.flatMap Section.declarations

/-- Declarations of types never conflict. -/
theorem addAll?_types (w : World) (entries : List (Symbol × String)) :
    w.addAll? ((entries.map fun entry => (entry.1.name, entry.2)).map
        fun (name, parent) => .type name (some parent)) =
      some (entries.foldl (fun w (name, type) => w.addType name.name (some type)) w) := by
  induction entries generalizing w with
  | nil => rfl
  | cons entry entries ih => exact ih _

/-- Where a name was read from only matters to the report of a conflict. -/
theorem add?_object (w : World) (name : Symbol) (type : String) :
    w.add? (.object (.ofName name.name) type) = (w.declare name type).toOption := by
  unfold add? declare
  simp only [add, addObject_eq, Symbol.ofName]
  cases w.typeOf? (Text.lowerSymbol name.name) with
  | none => rfl
  | some previous =>
    by_cases hprevious : previous = Text.lowerSymbol type <;> simp [hprevious, Except.toOption]

theorem addAll?_objects (w : World) (entries : List (Symbol × String)) :
    w.addAll? ((entries.map fun entry => (entry.1.name, entry.2)).map
        fun (name, type) => .object (.ofName name) type) =
      (foldSteps (fun w (name, type) => World.declare w name type) w entries).toOption := by
  induction entries generalizing w with
  | nil => rfl
  | cons entry entries ih =>
    simp only [List.map_cons, addAll?_cons, add?_object, foldSteps]
    cases w.declare entry.1 entry.2 with
    | error e => rfl
    | ok w => exact ih w

/-- Reading a section carries out its declarations. -/
theorem readSection_toOption (w : World) {s : Section} {e : SExpr} (h : e.tree = s.tree) :
    (readSection w e).toOption = w.addAll? s.declarations := by
  -- A section starts with an atom, by which the reader goes.
  have hitems {key : String} {ts : List Tree} (h : e.tree = .list (.atom key :: ts)) :
      ∃ (sym : Symbol) (es : List SExpr) (span : Span), e = .list (.atom sym :: es) span ∧
        sym.name = key ∧ es.map SExpr.tree = ts := by
    obtain ⟨items, span, rfl, hitems⟩ := SExpr.tree_eq_list_iff.mp h
    obtain ⟨first, es, rfl, hfirst, hes⟩ := List.map_eq_cons_iff.mp hitems
    obtain ⟨sym, rfl, hkey⟩ := SExpr.tree_eq_atom_iff.mp hfirst
    exact ⟨sym, es, span, rfl, hkey, hes⟩
  cases s with
  | types names =>
    obtain ⟨sym, es, span, rfl, hkey, hes⟩ := hitems h
    obtain ⟨typed, htyped, hentries⟩ := exists_typedNames span names hes
    simp only [readSection, SExpr.cursor?, SExpr.Cursor.nextAtom, SExpr.Cursor.next, hkey, htyped]
    rw [Section.declarations, ← hentries, addAll?_types]
    rfl
  | constants names | objects names =>
    obtain ⟨sym, es, span, rfl, hkey, hes⟩ := hitems h
    obtain ⟨typed, htyped, hentries⟩ := exists_typedNames span names hes
    simp only [readSection, SExpr.cursor?, SExpr.Cursor.nextAtom, SExpr.Cursor.next, hkey, htyped]
    rw [Section.declarations, ← hentries, addAll?_objects]
    split <;> simp_all [Except.toOption]
  | other key items hkey =>
    obtain ⟨sym, es, span, rfl, rfl, hes⟩ := hitems h
    simp only [List.mem_cons, List.not_mem_nil, or_false, not_or] at hkey
    simp [readSection, SExpr.cursor?, SExpr.Cursor.nextAtom, SExpr.Cursor.next, hkey,
      Section.declarations, Except.toOption]

/-- Reading sections carries out their declarations, one section after the other. -/
theorem foldSteps_readSection (w : World) {sections : List Section} {es : List SExpr}
    (h : es.map SExpr.tree = sections.map Section.tree) :
    (foldSteps readSection w es).toOption = w.addAll? (declarationsOf sections) := by
  induction sections generalizing w es with
  | nil =>
    obtain rfl := List.map_eq_nil_iff.mp h
    rfl
  | cons s sections ih =>
    obtain ⟨e, es, rfl, he, hes⟩ := List.map_eq_cons_iff.mp h
    rw [declarationsOf, List.flatMap_cons, addAll?_append, ← readSection_toOption w he, foldSteps]
    cases readSection w e with
    | error e => rfl
    | ok w => exact ih w hes

/-! ## Definitions -/

/-- A definition as it is written: a word for its kind with a name behind it, and its sections. -/
def Definition.tree (definition : Definition) (name : List Tree) (sections : List Section) : Tree :=
  .list (.atom "define" :: .list (.atom definition.keyword :: name) :: sections.map Section.tree)

/-- Reading a definition carries out the declarations of its sections. -/
theorem readDefinition_toOption (w : World) {definition : Definition} {name : List Tree}
    {sections : List Section} {e : SExpr} (h : e.tree = definition.tree name sections) :
    (readDefinition definition w e).toOption =
      w.addAll? (declarationsOf sections) := by
  obtain ⟨items, span, rfl, hitems⟩ := SExpr.tree_eq_list_iff.mp h
  obtain ⟨first, items, rfl, hfirst, hitems⟩ := List.map_eq_cons_iff.mp hitems
  obtain ⟨heading, es, rfl, hheading, hes⟩ := List.map_eq_cons_iff.mp hitems
  obtain ⟨sym, rfl, hdefine⟩ := SExpr.tree_eq_atom_iff.mp hfirst
  obtain ⟨words, span', rfl, hwords⟩ := SExpr.tree_eq_list_iff.mp hheading
  obtain ⟨word, words, rfl, hword, -⟩ := List.map_eq_cons_iff.mp hwords
  obtain ⟨kind, rfl, hkind⟩ := SExpr.tree_eq_atom_iff.mp hword
  rw [← foldSteps_readSection w hes]
  simp [readDefinition, World.sections, SExpr.cursor?, SExpr.Cursor.nextWord,
    SExpr.Cursor.nextList, SExpr.Cursor.next, SExpr.isAtom, hdefine, hkind]

/-- Reading the text of a definition carries out the declarations of its sections. -/
theorem readInput_toOption (w : World) {definition : Definition} {name : List Tree}
    {sections : List Section} {input : Input}
    (h : (definition.tree name sections).IsReadFrom input.text) :
    (readInput definition w input).toOption = w.addAll? (declarationsOf sections) := by
  obtain ⟨e, he, htree⟩ := SExpr.exists_ofInput_iff.mpr h
  rw [← readDefinition_toOption w htree]
  simp only [readInput, he]
  cases readDefinition definition w e <;> rfl

/-- Reading a domain and a problem comes to the same as carrying out the declarations of their
sections, and fails if and only if one of these conflicts with an earlier one.

The sections may be any, in any order and number, with constants before types and names in any case.
`hdomain` and `hproblem` say that the texts are writings of them, with white space and comments
anywhere. -/
theorem ofInputs_eq_ok_iff {domain problem : Input} {domainName problemName : List Tree}
    {domainSections problemSections : List Section}
    (hdomain : (Definition.domain.tree domainName domainSections).IsReadFrom domain.text)
    (hproblem : (Definition.problem.tree problemName problemSections).IsReadFrom problem.text)
    (w : World) :
    ofInputs (some domain) problem = .ok w ↔
      Accepted (declarationsOf (domainSections ++ problemSections)) ∧
        w = after (declarationsOf (domainSections ++ problemSections)) := by
  have hdeclarations : declarationsOf (domainSections ++ problemSections) =
      declarationsOf domainSections ++ declarationsOf problemSections := List.flatMap_append
  rw [← addAll?_empty_eq_some_iff, hdeclarations, addAll?_append,
    ← readInput_toOption empty hdomain, ofInputs]
  cases readInput .domain empty domain with
  | error e => simp [Except.toOption]
  | ok w' =>
    simp only [Except.toOption, Option.bind_some]
    rw [← readInput_toOption w' hproblem]
    cases readInput .problem w' problem <;> simp [Except.toOption]

/-- The constants come before the types. -/
def depotDomain : Input :=
  .ofText ("(define (domain d) (:constants Depot - place) ; now types\n"
    ++ "  (:types truck - vehicle\n place))")

def depotProblem : Input :=
  .ofText "(define (problem p) (:objects t1 T2 - truck pkg) (:goal (at t1)))"

def depotSections : List Section :=
  [.constants ⟨[(["depot"], "place")], [], by decide, by decide⟩,
    .types ⟨[(["truck"], "vehicle")], ["place"], by decide, by decide⟩]

def depotProblemSections : List Section :=
  [.objects ⟨[(["t1", "t2"], "truck")], ["pkg"], by decide, by decide⟩,
    .other ":goal" [.list [.atom "at", .atom "t1"]] (by decide)]

theorem ofInputs_depot :
    ∃ w, ofInputs (some depotDomain) depotProblem = .ok w ∧
      w.parents = [("place", "object"), ("truck", "vehicle")] ∧
      w.objects = [("depot", "place"), ("t1", "truck"), ("t2", "truck"), ("pkg", "object")] := by
  have hdomain : (Definition.domain.tree [.atom "d"] depotSections).IsReadFrom
      depotDomain.text :=
    ⟨SExpr.tokens depotDomain.text.toList, SExpr.tokensFrom_eq_iff.mp rfl, by decide +kernel⟩
  have hproblem : (Definition.problem.tree [.atom "p"] depotProblemSections).IsReadFrom
      depotProblem.text :=
    ⟨SExpr.tokens depotProblem.text.toList, SExpr.tokensFrom_eq_iff.mp rfl, by decide +kernel⟩
  have haccepted : Accepted (declarationsOf (depotSections ++ depotProblemSections)) :=
    accepted_of_objectEntries (by decide +kernel)
  exact ⟨_, (ofInputs_eq_ok_iff hdomain hproblem _).mpr ⟨haccepted, rfl⟩, by decide +kernel,
    by decide +kernel⟩

end World

end PlanConstraints

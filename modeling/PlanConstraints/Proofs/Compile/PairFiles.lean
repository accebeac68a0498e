import Mathlib.Data.List.Nodup
import PlanConstraints.Compile.Modes
import PlanConstraints.Proofs.ActionSet.Instances
import PlanConstraints.Proofs.File.Writing
import PlanConstraints.Property.File

set_option autoImplicit false

/-!
# The files of pairs of properties

The file of a pair is named by its two properties with a dash between them.  Names may hold dashes
themselves, so that two pairs may have one file, and each file is left with the text of the last
pair that was written to it.  Which pairs keep their text is said by `write_files`; names without
dashes and slashes keep the files of all pairs apart.
-/

namespace PlanConstraints

namespace Exclusivity

variable {files after : FileTree} {set : PropertySet} {folder : String} {paths : List String}

/-- The path of the file for a pair. -/
def pathOf (folder : String) (x : Property × Property) : String := path folder x.1 x.2

/-- The property file for a pair. -/
def textOf (set : PropertySet) (x : Property × Property) : String := text set x.1 x.2

/-- The last of several pairs whose file is at an address. -/
def lastAt (files : FileTree) (folder : String) (a : Address) (xs : List (Property × Property)) :
    Option (Property × Property) :=
  xs.reverse.find? fun x => files.address? (pathOf folder x) = some a

/-- The file of every pair holds the text of the pair. -/
def KeepsFiles (files : FileTree) (set : PropertySet) (folder : String) : Prop :=
  ∀ x ∈ pairs set, files.read (pathOf folder x) = .ok (textOf set x)

instance : Decidable (KeepsFiles files set folder) :=
  inferInstanceAs (Decidable (∀ x ∈ pairs set, _))

/-- The names of the properties have neither dashes nor slashes. -/
def NamesArePlain (set : PropertySet) : Prop :=
  ∀ p ∈ set.properties, '-' ∉ p.name.name.toList ∧ '/' ∉ p.name.name.toList

instance : Decidable (NamesArePlain set) :=
  inferInstanceAs (Decidable (∀ p ∈ set.properties, _))

theorem lastAt_cons (x : Property × Property) (xs : List (Property × Property)) (a : Address) :
    lastAt files folder a (x :: xs) = (lastAt files folder a xs).or
      (if files.address? (pathOf folder x) = some a then some x else none) := by
  simp [lastAt, List.find?_append]

theorem mem_of_lastAt {a : Address} {xs : List (Property × Property)} {y : Property × Property}
    (h : lastAt files folder a xs = some y) :
    y ∈ xs ∧ files.address? (pathOf folder y) = some a :=
  ⟨List.mem_reverse.mp (List.mem_of_find?_eq_some h), by simpa using List.find?_some h⟩

theorem exists_lastAt {a : Address} {xs : List (Property × Property)} {x : Property × Property}
    (hx : x ∈ xs) (hplace : files.address? (pathOf folder x) = some a) :
    ∃ y, lastAt files folder a xs = some y := by
  refine Option.isSome_iff_exists.mp (List.find?_isSome.mpr ⟨x, List.mem_reverse.mpr hx, ?_⟩)
  simpa using hplace

/-! ## Writing the files of several pairs -/

/-- What writing the files of several pairs does to a tree: paths lead where they led, each of the
pairs has a file, and every address without a device holds the text of the last pair whose file it
is, or what it held. -/
structure Written (files after : FileTree) (set : PropertySet) (folder : String)
    (xs : List (Property × Property)) : Prop where
  leads : ∀ path a, files.address? path = some a → after.address? path = some a
  devices : ∀ a d, files.get? a = some (.device d) → ∃ d', after.get? a = some (.device d')
  placed : ∀ x ∈ xs, ∃ a, after.address? (pathOf folder x) = some a
  content : ∀ a, (∀ d, after.get? a ≠ some (.device d)) → after.get? a =
    ((lastAt after folder a xs).map fun y => Entry.text (textOf set y)).or (files.get? a)

theorem Written.refl : Written files files set folder [] where
  leads _ _ h := h
  devices _ d h := ⟨d, h⟩
  placed _ h := absurd h List.not_mem_nil
  content _ _ := rfl

/-- The file of one more pair, written before the others. -/
theorem Written.cons {next : FileTree} {x : Property × Property} {xs : List (Property × Property)}
    (hwrite : files.write (pathOf folder x) (textOf set x) = .ok next)
    (h : Written next after set folder xs) : Written files after set folder (x :: xs) := by
  obtain ⟨a, ha, -⟩ := FileTree.write_eq_ok hwrite
  have hplace := h.leads _ a (FileTree.address?_write hwrite ha)
  refine ⟨?_, ?_, ?_, ?_⟩
  · intro path b hb
    exact h.leads path b (FileTree.address?_write hwrite hb)
  · intro b d hb
    obtain ⟨d', hd'⟩ := FileTree.device_write hwrite hb
    exact h.devices b d' hd'
  · exact List.forall_mem_cons.mpr ⟨⟨a, hplace⟩, h.placed⟩
  · intro b hb
    have hnext : ∀ d, next.get? b ≠ some (.device d) := fun d hd => (h.devices b d hd).elim hb
    rw [h.content b hb, lastAt_cons, FileTree.get?_write hwrite ha hnext, hplace]
    cases lastAt after folder b xs with
    | some y => rfl
    | none =>
      by_cases hba : b = a
      · simp [hba]
      · simp [hba, Ne.symm hba]

theorem writePairs_eq_ok {xs : List (Property × Property)}
    (h : writePairs files set folder xs = (after, .ok paths)) :
    paths = xs.map (pathOf folder) ∧ Written files after set folder xs := by
  induction xs generalizing files paths with
  | nil =>
    cases h
    exact ⟨rfl, .refl⟩
  | cons x xs ih =>
    obtain ⟨p, q⟩ := x
    unfold writePairs at h
    simp only at h
    split at h
    · cases h
    · next next hnext =>
      split at h
      · cases h
      · next rest more hrest =>
        cases h
        obtain ⟨rfl, hwritten⟩ := ih hrest
        exact ⟨rfl, hwritten.cons hnext⟩

/-- Unless it leads to a device, the path of a pair is left with the text of the last pair with the
same file. -/
theorem Written.exists_lastAt {xs : List (Property × Property)}
    (h : Written files after set folder xs) {x : Property × Property} (hx : x ∈ xs)
    (hdevice : after.isDevice (pathOf folder x) = false) :
    ∃ a y, after.address? (pathOf folder x) = some a ∧ lastAt after folder a xs = some y ∧
      after.read (pathOf folder x) = .ok (textOf set y) := by
  obtain ⟨a, ha⟩ := h.placed x hx
  obtain ⟨y, hy⟩ := Exclusivity.exists_lastAt hx ha
  have hplain : ∀ d, after.get? a ≠ some (.device d) := by
    intro d hd
    rw [FileTree.isDevice_of_address? ha hd] at hdevice
    cases hdevice
  have hcontent := h.content a hplain
  rw [hy] at hcontent
  exact ⟨a, y, ha, hy, FileTree.read_of_address? ha hcontent⟩

/-- If every file holds the text of the last of its pairs, all pairs keep their text exactly if
those with the same file have the same text. -/
theorem keepsFiles_iff (hlast : ∀ x ∈ pairs set, ∃ a y,
    after.address? (pathOf folder x) = some a ∧ lastAt after folder a (pairs set) = some y ∧
      after.read (pathOf folder x) = .ok (textOf set y)) :
    KeepsFiles after set folder ↔ ∀ x ∈ pairs set, ∀ y ∈ pairs set,
      after.address? (pathOf folder x) = after.address? (pathOf folder y) →
        textOf set x = textOf set y := by
  constructor
  · intro hkeeps x hx y hy hsame
    obtain ⟨a, z, ha, hz, hread⟩ := hlast x hx
    obtain ⟨b, z', hb, hz', hread'⟩ := hlast y hy
    obtain rfl : a = b := Option.some_inj.mp (ha.symm.trans (hsame.trans hb))
    obtain rfl : z = z' := Option.some_inj.mp (hz.symm.trans hz')
    rw [hkeeps x hx] at hread
    rw [hkeeps y hy] at hread'
    rw [Except.ok.inj hread, Except.ok.inj hread']
  · intro hsame x hx
    obtain ⟨a, y, ha, hy, hread⟩ := hlast x hx
    obtain ⟨hmem, hya⟩ := mem_of_lastAt hy
    rw [hread, hsame x hx y hmem (ha.trans hya.symm)]

/-! ## Files of different pairs -/

theorem mem_pairs {x : Property × Property} : x ∈ pairs set ↔
    x.1 ∈ set.properties ∧ x.2 ∈ set.properties ∧ x.1.name.name ≠ x.2.name.name := by
  obtain ⟨p, q⟩ := x
  simp only [pairs, List.mem_flatMap, List.mem_map, List.mem_filter, decide_eq_true_eq,
    Prod.mk.injEq]
  constructor
  · rintro ⟨p', hp, q', ⟨hq, hne⟩, rfl, rfl⟩
    exact ⟨hp, hq, hne⟩
  · rintro ⟨hp, hq, hne⟩
    exact ⟨p, hp, q, ⟨hq, hne⟩, rfl, rfl⟩

theorem toList_pairName (p q : Property) :
    (pairName p q).toList = p.name.name.toList ++ '-' :: q.name.name.toList := by
  simp [pairName]

/-- If names are plain, the file of a pair bears the name of the pair. -/
theorem getLast?_of_pathOf (hplain : NamesArePlain set) {x : Property × Property}
    (hx : x ∈ pairs set) {a : Address} (h : files.address? (pathOf folder x) = some a) :
    a.getLast? = some (pairName x.1 x.2).toList := by
  obtain ⟨hp, hq, -⟩ := mem_pairs.mp hx
  have hdash : '-' ∈ (pairName x.1 x.2).toList := by simp [toList_pairName]
  have hslash : '/' ∉ (pairName x.1 x.2).toList := by
    simp [toList_pairName, (hplain x.1 hp).2, (hplain x.2 hq).2]
  have hother : ∀ name : List Char, '-' ∉ name → (pairName x.1 x.2).toList ≠ name := by
    rintro name hname rfl
    exact hname hdash
  obtain ⟨before, hpieces⟩ := Path.pieces_inFolder folder (hother [] (by simp)) hslash
  refine FileTree.getLast?_of_address? hpieces ?_ (hother _ (by decide)) h
  simp [Path.isStep, hother [] (by simp), hother Path.here (by decide)]

/-- If names are plain, pairs with the same file have the same names. -/
theorem names_eq_of_address?_eq (hplain : NamesArePlain set) {x y : Property × Property}
    (hx : x ∈ pairs set) (hy : y ∈ pairs set) {a : Address}
    (hxa : files.address? (pathOf folder x) = some a)
    (hya : files.address? (pathOf folder y) = some a) :
    x.1.name.name = y.1.name.name ∧ x.2.name.name = y.2.name.name := by
  have hlast := getLast?_of_pathOf hplain hx hxa
  rw [getLast?_of_pathOf hplain hy hya, Option.some_inj, toList_pairName, toList_pairName] at hlast
  have hdash : ∀ {z : Property × Property}, z ∈ pairs set → '-' ∉ z.2.name.name.toList :=
    fun hz => (hplain _ (mem_pairs.mp hz).2.1).1
  obtain ⟨hfront, hback⟩ := SetBlock.append_cons_inj_of_notMem (hdash hy) (hdash hx) hlast
  exact ⟨(String.toList_inj.mp hfront).symm, (String.toList_inj.mp hback).symm⟩

/-- Properties with the same name are the same if all names are different. -/
theorem pair_eq_of_names (hnames : (set.properties.map fun p => p.name.name).Nodup)
    {x y : Property × Property} (hx : x ∈ pairs set) (hy : y ∈ pairs set)
    (h : x.1.name.name = y.1.name.name ∧ x.2.name.name = y.2.name.name) : x = y := by
  obtain ⟨hx1, hx2, -⟩ := mem_pairs.mp hx
  obtain ⟨hy1, hy2, -⟩ := mem_pairs.mp hy
  exact Prod.ext (List.inj_on_of_nodup_map hnames hx1 hy1 h.1)
    (List.inj_on_of_nodup_map hnames hx2 hy2 h.2)

/-- When the files of all pairs have been written, none of them to a device, the file of a pair
holds the text of the last pair with the same file.  So all pairs keep their text exactly if pairs
with the same file have the same text.  If names are plain, pairs with the same file have the same
names, and if the names are different as well, all pairs keep their text.

`hdevice` is about paths that lead to devices, which keep nothing of what is written.  The third
part is exact for any names; the last one gives the condition on names that a user can check. -/
theorem write_files (h : write files .actionSets set folder = (after, .ok paths))
    (hdevice : ∀ x ∈ pairs set, after.isDevice (pathOf folder x) = false) :
    paths = (pairs set).map (pathOf folder) ∧
      (∀ x ∈ pairs set, ∃ a y, after.address? (pathOf folder x) = some a ∧
        lastAt after folder a (pairs set) = some y ∧
          after.read (pathOf folder x) = .ok (textOf set y)) ∧
      (KeepsFiles after set folder ↔ ∀ x ∈ pairs set, ∀ y ∈ pairs set,
        after.address? (pathOf folder x) = after.address? (pathOf folder y) →
          textOf set x = textOf set y) ∧
      (NamesArePlain set →
        (∀ x ∈ pairs set, ∀ y ∈ pairs set,
          after.address? (pathOf folder x) = after.address? (pathOf folder y) →
            x.1.name.name = y.1.name.name ∧ x.2.name.name = y.2.name.name) ∧
          ((set.properties.map fun p => p.name.name).Nodup → KeepsFiles after set folder)) := by
  simp only [write] at h
  split at h
  · cases h
  · next made hmade =>
    obtain ⟨hpaths, hwritten⟩ := writePairs_eq_ok h
    have hlast := fun x hx => hwritten.exists_lastAt hx (hdevice x hx)
    have hkeeps := keepsFiles_iff hlast
    have hnames : NamesArePlain set → ∀ x ∈ pairs set, ∀ y ∈ pairs set,
        after.address? (pathOf folder x) = after.address? (pathOf folder y) →
          x.1.name.name = y.1.name.name ∧ x.2.name.name = y.2.name.name := by
      intro hplain x hx y hy hsame
      obtain ⟨a, ha⟩ := hwritten.placed x hx
      exact names_eq_of_address?_eq hplain hx hy ha (hsame ▸ ha)
    refine ⟨hpaths, hlast, hkeeps, fun hplain => ⟨hnames hplain, fun hnodup => ?_⟩⟩
    refine hkeeps.mpr fun x hx y hy hsame => ?_
    rw [pair_eq_of_names hnodup hx hy (hnames hplain x hx y hy hsame)]

/-- Two properties, the first of which holds whenever the second one does. -/
def entailed : Input := .ofText "property p\n|| moves loads\n\nproperty q\nmoves\n"

/-- The names `p` and `q` keep the two files apart. -/
theorem entailed_files : ∃ set after paths,
    PropertyFile.read .empty .actionSets entailed = .ok set ∧
    write .empty .actionSets set "out" = (after, .ok paths) ∧
      paths = ["out/p-q", "out/q-p"] ∧ KeepsFiles after set "out" := by
  have hrun : ((PropertyFile.read .empty .actionSets entailed).toOption.bind fun set =>
      (write .empty .actionSets set "out").2.toOption.map fun paths =>
        decide (paths = ["out/p-q", "out/q-p"] ∧ NamesArePlain set ∧
          (set.properties.map fun p => p.name.name).Nodup ∧ ∀ x ∈ pairs set,
            (write .empty .actionSets set "out").1.isDevice (pathOf "out" x) = false)) =
      some true := by
    decide +kernel
  obtain ⟨set, hread, hwrite⟩ := Option.bind_eq_some_iff.mp hrun
  obtain ⟨paths, hpaths, hfacts⟩ := Option.map_eq_some_iff.mp hwrite
  obtain ⟨heq, hplain, hnodup, hdevice⟩ := of_decide_eq_true hfacts
  have hwritten : write .empty .actionSets set "out" =
      ((write .empty .actionSets set "out").1, .ok paths) :=
    Prod.ext rfl (eq_ok_of_toOption hpaths)
  obtain ⟨-, -, -, hnames⟩ := write_files hwritten hdevice
  exact ⟨set, _, paths, eq_ok_of_toOption hread, hwritten, heq, (hnames hplain).2 hnodup⟩

/-- Two properties, one of whose names holds a dash. -/
def dashed : Input := .ofText "property a\nx\nproperty a-a\ny\n"

/-- The pairs of `a` and `a-a` in either order have one file, which keeps the text of the second
pair only. -/
theorem dashed_files : ∃ set after, PropertyFile.read .empty .actionSets dashed = .ok set ∧
    write .empty .actionSets set "out" = (after, .ok ["out/a-a-a", "out/a-a-a"]) ∧
      (pairs set).map (fun x => (x.1.name.name, x.2.name.name)) = [("a", "a-a"), ("a-a", "a")] ∧
        (∀ x ∈ pairs set, after.isDevice (pathOf "out" x) = false) ∧
          ¬ KeepsFiles after set "out" := by
  have hrun : ((PropertyFile.read .empty .actionSets dashed).toOption.bind fun set =>
      (write .empty .actionSets set "out").2.toOption.map fun paths =>
        decide (paths = ["out/a-a-a", "out/a-a-a"] ∧
          (pairs set).map (fun x => (x.1.name.name, x.2.name.name)) =
              [("a", "a-a"), ("a-a", "a")] ∧
            (∀ x ∈ pairs set,
              (write .empty .actionSets set "out").1.isDevice (pathOf "out" x) = false) ∧
            ¬ KeepsFiles (write .empty .actionSets set "out").1 set "out")) = some true := by
    decide +kernel
  obtain ⟨set, hread, hwrite⟩ := Option.bind_eq_some_iff.mp hrun
  obtain ⟨paths, hpaths, hfacts⟩ := Option.map_eq_some_iff.mp hwrite
  obtain ⟨rfl, hpairs, hdevice, hkeeps⟩ := of_decide_eq_true hfacts
  exact ⟨set, _, eq_ok_of_toOption hread, Prod.ext rfl (eq_ok_of_toOption hpaths), hpairs, hdevice,
    hkeeps⟩

end Exclusivity

end PlanConstraints

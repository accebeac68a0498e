import PlanConstraints.File.Tree
import PlanConstraints.Proofs.Text.Lines

set_option autoImplicit false

/-!
# What writing a file changes

Writing a text changes what is found at the address of its path, and nothing else: every path that
leads somewhere still leads there (`address?_write`), and the other addresses hold what they held
(`get?_write`).  What a path leads to bears the last name of the path (`getLast?_of_address?`).
-/

namespace PlanConstraints

namespace Path

/-- The last piece of a path is what stands behind its last slash. -/
theorem pieces_ofChars_append (front : List Char) {name : List Char} (h : '/' ∉ name) :
    ∃ before, (ofChars (front ++ '/' :: name)).pieces = before ++ [name] := by
  have hlast : ∀ cs, Text.split '/' (cs ++ '/' :: name) = Text.split '/' cs ++ [name] := by
    intro cs
    rw [Text.split_append_separator, Text.split_of_notMem h]
  cases front with
  | nil => exact ⟨[], by simp [ofChars, Text.split_of_notMem h]⟩
  | cons c cs =>
    rw [List.cons_append, ofChars]
    by_cases hc : c = '/'
    · rw [if_pos hc]
      exact ⟨_, hlast cs⟩
    · rw [if_neg hc]
      exact ⟨_, hlast (c :: cs)⟩

/-- A name without slashes is the last piece of its path in a folder. -/
theorem pieces_inFolder (folder : String) {name : String} (hname : name.toList ≠ [])
    (h : '/' ∉ name.toList) :
    ∃ before, (ofText (inFolder folder name)).pieces = before ++ [name.toList] := by
  have hhead : name.toList.head? ≠ some '/' := fun hhead => h (List.mem_of_head? hhead)
  unfold inFolder ofText
  rw [if_neg hhead]
  split
  · obtain ⟨c, cs, hcs⟩ := List.exists_cons_of_ne_nil hname
    rw [hcs] at h ⊢
    have hc : c ≠ '/' := fun hc => h (by simp [hc])
    exact ⟨[], by simp [ofChars, hc, Text.split_of_notMem h]⟩
  · next hlast =>
    obtain ⟨front, hfront⟩ := List.getLast?_eq_some_iff.mp hlast
    rw [String.toList_append, hfront, List.append_assoc]
    exact pieces_ofChars_append front h
  · rw [String.toList_append, String.toList_append, List.append_assoc]
    exact pieces_ofChars_append _ h

end Path

namespace FileTree

variable {t after : FileTree}

/-- The address to which a path leads, if it leads anywhere. -/
def address? (t : FileTree) (path : String) : Option Address :=
  (t.resolve (.ofText path)).toOption.map Target.address

theorem address?_eq_some_iff {path : String} {a : Address} : t.address? path = some a ↔
    ∃ target, t.resolve (.ofText path) = .ok target ∧ target.address = a := by
  unfold address?
  cases t.resolve (.ofText path) with
  | error e => simp [Except.toOption]
  | ok target => simp [Except.toOption]

theorem resolve_eq_ok {p : Path} {target : Target} (h : t.resolve p = .ok target) :
    refused? p = none ∧ t.follow (t.startOf p) p.pieces = .ok target := by
  unfold resolve at h
  split at h
  · cases h
  · next hr => exact ⟨hr, h⟩

/-- A text at the address of a path is what is read from the path. -/
theorem read_of_address? {path : String} {a : Address} {content : String}
    (h : t.address? path = some a) (ha : t.get? a = some (.text content)) :
    t.read path = .ok content := by
  obtain ⟨target, hresolve, rfl⟩ := address?_eq_some_iff.mp h
  rw [get?_of_follow (resolve_eq_ok hresolve).2] at ha
  cases target with
  | found b e =>
    cases ha
    simp [read, hresolve]
  | absent b => cases ha

/-- A path whose address holds a device leads to a device. -/
theorem isDevice_of_address? {path : String} {a : Address} {d : Device}
    (h : t.address? path = some a) (ha : t.get? a = some (.device d)) :
    t.isDevice path = true := by
  obtain ⟨target, hresolve, rfl⟩ := address?_eq_some_iff.mp h
  rw [get?_of_follow (resolve_eq_ok hresolve).2] at ha
  cases target with
  | found b e =>
    cases ha
    simp [isDevice, hresolve]
  | absent b => cases ha

/-- What a path leads to bears the last name of the path. -/
theorem getLast?_of_follow {name : List Char} (hstep : Path.isStep name = true)
    (habove : name ≠ Path.above) {address : Address} {pieces : List (List Char)} {target : Target}
    (h : t.follow address (pieces ++ [name]) = .ok target) :
    target.address.getLast? = some name := by
  induction pieces generalizing address with
  | nil =>
    simp only [List.nil_append, follow, hstep, habove] at h
    split at h
    · simp only [Bool.not_true, Bool.false_eq_true, if_false] at h
      split at h
      · cases h
      · cases he : t.get? (address ++ [name]) with
        | some e =>
          rw [he] at h
          cases h
          simp [Target.address]
        | none =>
          rw [he] at h
          cases h
          simp [Target.address]
    · cases h
    · cases h
  | cons piece more ih =>
    rw [List.cons_append, follow] at h
    split at h
    · split at h
      · exact ih h
      · split at h
        · exact ih h
        · split at h
          · cases h
          · split at h
            · exact ih h
            · simp at h
    · cases h
    · cases h

theorem getLast?_of_address? {path : String} {a : Address} {before : List (List Char)}
    {name : List Char} (hpieces : (Path.ofText path).pieces = before ++ [name])
    (hstep : Path.isStep name = true) (habove : name ≠ Path.above)
    (h : t.address? path = some a) : a.getLast? = some name := by
  obtain ⟨target, hresolve, rfl⟩ := address?_eq_some_iff.mp h
  have hfollow := (resolve_eq_ok hresolve).2
  rw [hpieces] at hfollow
  exact getLast?_of_follow hstep habove hfollow

/-! ## One text after the other -/

theorem address?_setEntry {a b : Address} {e : Entry} {path : String}
    (ha : t.get? a ≠ some .folder) (h : t.address? path = some b) :
    (t.setEntry a e).address? path = some b := by
  obtain ⟨target, hresolve, rfl⟩ := address?_eq_some_iff.mp h
  obtain ⟨hr, hfollow⟩ := resolve_eq_ok hresolve
  have hnew : (t.setEntry a e).resolve (.ofText path) =
      .ok (if target.address = a then .found a e else target) := by
    rw [resolve, hr]
    exact follow_setEntry ha hfollow
  refine address?_eq_some_iff.mpr ⟨_, hnew, ?_⟩
  split
  · next htarget => exact htarget.symm
  · rfl

/-- Writing puts the text at the address of the path, or into a device there. -/
theorem write_eq_ok {path content : String} (h : t.write path content = .ok after) :
    ∃ a, t.address? path = some a ∧ t.get? a ≠ some .folder ∧
      ((∀ d, t.get? a ≠ some (.device d)) ∧ after = t.setEntry a (.text content) ∨
        (∃ d, t.get? a = some (.device d)) ∧
          (after = t ∨ ∃ d, after = t.setEntry a (.device d))) := by
  unfold write at h
  split at h
  · cases h
  · next a ha =>
    obtain ⟨hr, hfolder, target, hfollow, hta⟩ := follow_of_fileTarget ha
    have hresolve : t.resolve (.ofText path) = .ok target := by rw [resolve, hr, hfollow]
    refine ⟨a, address?_eq_some_iff.mpr ⟨target, hresolve, hta⟩, hfolder, ?_⟩
    unfold put at h
    split at h
    · next hd =>
      cases h
      exact .inr ⟨⟨_, hd⟩, .inl rfl⟩
    · next hd =>
      split at h
      · cases h
        exact .inr ⟨⟨_, hd⟩, .inl rfl⟩
      · cases h
    · next hd =>
      cases h
      exact .inr ⟨⟨_, hd⟩, .inr ⟨_, rfl⟩⟩
    · next hnull hfull hstream =>
      cases h
      refine .inl ⟨?_, rfl⟩
      rintro (_ | _ | ⟨number, taken⟩) hd
      · exact hnull hd
      · exact hfull hd
      · exact hstream number taken hd

section

variable {path content : String} (h : t.write path content = .ok after)
include h

/-- Every path leads where it led. -/
theorem address?_write {other : String} {b : Address} (hb : t.address? other = some b) :
    after.address? other = some b := by
  obtain ⟨a, _, hfolder, ⟨_, rfl⟩ | ⟨_, rfl | ⟨d, rfl⟩⟩⟩ := write_eq_ok h
  · exact address?_setEntry hfolder hb
  · exact hb
  · exact address?_setEntry hfolder hb

/-- Devices stay devices. -/
theorem device_write {b : Address} {d : Device} (hb : t.get? b = some (.device d)) :
    ∃ d', after.get? b = some (.device d') := by
  have hroot : b ≠ [] := by
    rintro rfl
    cases hb
  obtain ⟨a, _, _, ⟨hplain, rfl⟩ | ⟨_, rfl | ⟨d', rfl⟩⟩⟩ := write_eq_ok h
  · have hba : b ≠ a := fun hba => hplain d (hba ▸ hb)
    exact ⟨d, by rw [get?_setEntry, if_neg hroot, if_neg hba, hb]⟩
  · exact ⟨d, hb⟩
  · rw [get?_setEntry, if_neg hroot]
    split
    · exact ⟨d', rfl⟩
    · exact ⟨d, hb⟩

/-- At the address of the path, unless it is that of a device, the text is found, and at the other
addresses what was there. -/
theorem get?_write {a b : Address} (ha : t.address? path = some a)
    (hplain : ∀ d, after.get? b ≠ some (.device d)) :
    after.get? b = if b = a then some (.text content) else t.get? b := by
  have hplain' : ∀ d, t.get? b ≠ some (.device d) := fun d hd =>
    (device_write h hd).elim hplain
  obtain ⟨a', ha', hfolder, hcases⟩ := write_eq_ok h
  rw [ha] at ha'
  cases ha'
  have hother : ∀ e, b ≠ a → (t.setEntry a e).get? b = t.get? b := by
    intro e hba
    rw [get?_setEntry, if_neg hba, ite_eq_right_iff]
    rintro rfl
    rfl
  by_cases hba : b = a
  · subst hba
    obtain ⟨_, rfl⟩ | ⟨⟨d, hd⟩, _⟩ := hcases
    · have hroot : b ≠ [] := by
        rintro rfl
        exact hfolder rfl
      rw [get?_setEntry, if_neg hroot]
    · exact absurd hd (hplain' d)
  · rw [if_neg hba]
    obtain ⟨_, rfl⟩ | ⟨_, rfl | ⟨d, rfl⟩⟩ := hcases
    · exact hother _ hba
    · rfl
    · exact hother _ hba

end

end FileTree

end PlanConstraints

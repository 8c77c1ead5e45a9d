import Mathlib.Data.List.Nodup
import UmlSkeleton.Proofs.Model.Sound
import UmlSkeleton.Proofs.Skeleton.Parents

/-!
# The first defect

A class *offends* against those before it when it has a key or a name of theirs, or no name. The check of
a model stops at the first class that offends, and `Class.Breaks` says what it reports: the key before the
blank name, the blank name before the repeated one. The classes before that class are in order, so only
one of them can have the repeated name, and it is the one that is named in the report.

* `Class.breaks_of_defect?` — what is found of a class is what it breaks.
* `firstDefect?_eq_some` — the first defect is found at one of the classes, and at none before it.
* `check_reports_first` — the check accepts the sound models, and blames the first class that offends.
-/

namespace UmlSkeleton

open Text

namespace Class

variable {earlier : List Class} {c : Class} {d : Defect}

/-- The class repeats something of the earlier ones, or has no name. -/
def Offends (earlier : List Class) (c : Class) : Prop :=
  c.key ∈ earlier.map (·.key) ∨ trim c.name = "" ∨ c.name ∈ earlier.map (·.name)

/-- The rule that a class breaks, the earlier rules being kept. A repeated name belongs to one of the
earlier classes and to no other. -/
inductive Breaks (earlier : List Class) (c : Class) : Defect → Prop where
  | key (hkey : c.key ∈ earlier.map (·.key)) : Breaks earlier c (.duplicateKey c.key)
  | blank (hkey : c.key ∉ earlier.map (·.key)) (hblank : trim c.name = "") :
      Breaks earlier c (.blankName c.key)
  | name {first : Class} (hkey : c.key ∉ earlier.map (·.key)) (hblank : trim c.name ≠ "")
      (hfirst : earlier.filter (·.name = c.name) = [first]) :
      Breaks earlier c (.duplicateName c.name first.key c.key)

theorem offends_iff : c.Offends earlier ↔ c.defect? earlier ≠ none := by
  rw [ne_eq, defect?_eq_none_iff, Offends, trim_eq_empty_iff, ← Bool.not_eq_true]
  tauto

/-- Of items with different names, those with one name are the first of them. -/
theorem filter_name_eq {first : Class} (hnames : (earlier.map (·.name)).Nodup)
    (hfirst : earlier.find? (·.name = c.name) = some first) :
    earlier.filter (·.name = c.name) = [first] := by
  obtain ⟨hname, before, after, rfl, hbefore⟩ := List.find?_eq_some_iff_append.mp hfirst
  have hname : first.name = c.name := by simpa using hname
  have hne : ∀ d ∈ before ++ after, d.name ≠ c.name := by
    rw [List.map_append, List.map_cons, List.nodup_middle, List.nodup_cons, ← List.map_append,
      hname] at hnames
    exact fun d hd heq => hnames.1 (List.mem_map.mpr ⟨d, hd, heq⟩)
  rw [List.filter_append, List.filter_cons_of_pos (by simpa using hname),
    List.filter_eq_nil_iff.mpr fun d hd => by simpa using hne d (List.mem_append_left _ hd),
    List.filter_eq_nil_iff.mpr fun d hd => by simpa using hne d (List.mem_append_right _ hd)]
  rfl

/-- What is found of a class is what it breaks. -/
theorem breaks_of_defect? (hnames : (earlier.map (·.name)).Nodup) (h : c.defect? earlier = some d) :
    c.Breaks earlier d := by
  have hmem : earlier.any (·.key = c.key) = true ↔ c.key ∈ earlier.map (·.key) := by
    simp [List.any_eq_true]
  unfold defect? at h
  split at h
  · next hkey =>
      cases h
      exact .key (hmem.mp hkey)
  · next hkey =>
      rw [hmem] at hkey
      split at h
      · next hblank =>
          cases h
          exact .blank hkey (trim_eq_empty_iff.mpr hblank)
      · next hblank =>
          obtain ⟨first, hfirst, rfl⟩ := Option.map_eq_some_iff.mp h
          exact .name hkey (mt trim_eq_empty_iff.mp hblank) (filter_name_eq hnames hfirst)

end Class

/-! ## The class that is blamed -/

/-- Going through the classes stops at one of them, those before it having no defect. -/
theorem firstDefect?_eq_some {earlier classes : List Class} {d : Defect}
    (h : firstDefect? earlier classes = some d) :
    ∃ i, ∃ c : Class, classes[i]? = some c ∧ c.defect? (earlier ++ classes.take i) = some d ∧
      ∀ j < i, ∀ b : Class, classes[j]? = some b →
        b.defect? (earlier ++ classes.take j) = none := by
  induction classes generalizing earlier with
  | nil => cases h
  | cons c more ih =>
      rw [firstDefect?] at h
      cases hc : c.defect? earlier with
      | some d' =>
          rw [hc] at h
          cases h
          exact ⟨0, c, rfl, by rwa [List.take_zero, List.append_nil], fun j hj => by omega⟩
      | none =>
          rw [hc] at h
          obtain ⟨i, b, hb, hdefect, hbefore⟩ := ih h
          refine ⟨i + 1, b, hb, by simpa using hdefect, fun j hj b hb => ?_⟩
          cases j with
          | zero =>
              cases hb
              simpa using hc
          | succ j => simpa using hbefore j (by omega) b hb

namespace Model

variable {m : Model}

/-- Class by class without a defect, the classes before an index have different names. -/
theorem nodup_names_take {i : Nat}
    (h : ∀ j < i, ∀ b : Class, m.classes[j]? = some b → b.defect? (m.classes.take j) = none) :
    ((m.classes.take i).map (·.name)).Nodup := by
  induction i with
  | zero => simp
  | succ i ih =>
      have hnames := ih fun j hj => h j (by omega)
      cases hc : m.classes[i]? with
      | none =>
          rw [List.getElem?_eq_none_iff] at hc
          rwa [List.take_of_length_le (by omega), ← List.take_of_length_le hc]
      | some c =>
          obtain ⟨-, -, hname⟩ := Class.defect?_eq_none_iff.mp (h i (by omega) c hc)
          rw [List.take_add_one, hc, Option.toList_some]
          exact nodup_map_concat.mpr ⟨hname, hnames⟩

/-- **Validation.** The check accepts a model exactly if all keys are different, no name is blank and all
names are different. Otherwise there is a first class that offends against those before it, and the check
reports what it breaks. Relationships play no part. -/
theorem check_reports_first (m : Model) :
    (m.check = .ok () ↔ (m.classes.map (·.key)).Nodup ∧ (∀ c ∈ m.classes, trim c.name ≠ "") ∧
      (m.classes.map (·.name)).Nodup) ∧
    (m.check ≠ .ok () → ∃ i, ∃ c : Class, m.classes[i]? = some c ∧ c.Offends (m.classes.take i) ∧
      (∀ j < i, ∀ b : Class, m.classes[j]? = some b → ¬ b.Offends (m.classes.take j)) ∧
      ∃ d, m.check = .error (.defect d) ∧ c.Breaks (m.classes.take i) d) ∧
    ∀ relationships, Model.check { m with relationships } = m.check := by
  refine ⟨?_, fun h => ?_, fun _ => rfl⟩
  · rw [check_eq_ok_iff]
    have hblank (c : Class) : trim c.name ≠ "" ↔ allBlank c.name = false := by
      rw [ne_eq, trim_eq_empty_iff, Bool.not_eq_true]
    simp only [hblank]
    exact ⟨fun h => ⟨h.keys, h.named, h.names⟩, fun ⟨hkeys, hnamed, hnames⟩ => ⟨hkeys, hnames, hnamed⟩⟩
  · cases hdefect : m.defect? with
    | none => exact absurd (by rw [check, hdefect]) h
    | some d =>
        have hcheck : m.check = .error (.defect d) := by rw [check, hdefect]
        rw [defect?_eq_firstDefect?] at hdefect
        obtain ⟨i, c, hc, hd, hbefore⟩ := firstDefect?_eq_some hdefect
        simp only [List.nil_append] at hd hbefore
        refine ⟨i, c, hc, Class.offends_iff.mpr (by rw [hd]; exact Option.some_ne_none d), ?_, d, hcheck,
          Class.breaks_of_defect? (nodup_names_take hbefore) hd⟩
        exact fun j hj b hb hoffends => Class.offends_iff.mp hoffends (hbefore j hj b hb)

/-- A repeated name comes before a class that repeats a key and has no name. -/
theorem check_reports_name_of_pets :
    let m : Model := ⟨[⟨1, "Animal", [], []⟩, ⟨2, "Dog", [], []⟩, ⟨3, "Animal", [], []⟩, ⟨1, " ", [], []⟩], []⟩
    m.check ≠ .ok () ∧ m.check = .error (.defect (.duplicateName "Animal" 1 3)) ∧
      ∃ i, ∃ c : Class, m.classes[i]? = some c ∧
        c.Breaks (m.classes.take i) (.duplicateName "Animal" 1 3) := by
  intro m
  have hcheck : m.check = .error (.defect (.duplicateName "Animal" 1 3)) := rfl
  have hne : m.check ≠ .ok () := fun h => by cases hcheck.symm.trans h
  obtain ⟨i, c, hc, -, -, d, hd, hbreaks⟩ := (check_reports_first m).2.1 hne
  rw [hcheck] at hd
  cases hd
  exact ⟨hne, hcheck, i, c, hc, hbreaks⟩

end Model

end UmlSkeleton

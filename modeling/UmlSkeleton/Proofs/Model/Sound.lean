import Mathlib.Data.List.Nodup
import UmlSkeleton.Model.Defect

/-!
# Sound models

`Model.Sound` says of the classes as a whole what `Model.defect?` looks for class by class: no key
twice, no name twice, no blank name. What the check remembers of the classes it has seen is what can be
asked of these classes themselves (`Seen.Tracks`), so it compares each class with all those before it
(`defect?_eq_firstDefect?`). `defect?_eq_none_iff` shows that a model without a first defect is sound; in
a sound model a key or a name leads back to the class that has it.
-/

namespace UmlSkeleton

open Text

/-- No two classes have the same key or the same name, and no class has a blank name. -/
structure Model.Sound (m : Model) : Prop where
  keys : (m.classes.map (·.key)).Nodup
  names : (m.classes.map (·.name)).Nodup
  named : ∀ c ∈ m.classes, allBlank c.name = false

/-! ## Each class against those before it -/

/-- The first rule that a class breaks, `earlier` being the classes before it. -/
def Class.defect? (earlier : List Class) (c : Class) : Option Defect :=
  if earlier.any (·.key = c.key) then some (.duplicateKey c.key)
  else if allBlank c.name then some (.blankName c.key)
  else (earlier.find? (·.name = c.name)).map fun first => .duplicateName c.name first.key c.key

/-- The first defect of some classes, `earlier` being those before them. -/
def firstDefect? (earlier : List Class) : List Class → Option Defect
  | [] => none
  | c :: more => (c.defect? earlier).or (firstDefect? (earlier ++ [c]) more)

namespace Seen

variable {seen : Seen} {earlier : List Class} {c : Class}

/-- The keys are those of the earlier classes, and under a name is the key of the first class with it. -/
structure Tracks (seen : Seen) (earlier : List Class) : Prop where
  keys : ∀ key, key ∈ seen.keys ↔ ∃ c ∈ earlier, c.key = key
  names : ∀ name, (seen.names.find? (·.1 = name)).map (·.2) =
    (earlier.find? (·.name = name)).map (·.key)

theorem tracks_nothing : nothing.Tracks [] := ⟨fun _ => by simp [nothing], fun _ => rfl⟩

/-- Seeing one more class finds what it breaks, or remembers it. -/
theorem Tracks.add (h : seen.Tracks earlier) :
    (∃ d, seen.add c = .error d ∧ c.defect? earlier = some d) ∨
      ∃ more, seen.add c = .ok more ∧ c.defect? earlier = none ∧ more.Tracks (earlier ++ [c]) := by
  have hkeys : seen.keys.any (· = c.key) = earlier.any (·.key = c.key) := by
    rw [Bool.eq_iff_iff, List.any_eq_true, List.any_eq_true]
    simpa using h.keys c.key
  have hnames := h.names c.name
  unfold Seen.add Class.defect?
  rw [hkeys]
  split
  · exact .inl ⟨_, rfl, rfl⟩
  · split
    · exact .inl ⟨_, rfl, rfl⟩
    · cases hfound : seen.names.find? (·.1 = c.name) with
      | some entry =>
          rw [hfound] at hnames
          obtain ⟨first, hfirst, hkey⟩ := Option.map_eq_some_iff.mp hnames.symm
          have hkey : first.key = entry.2 := hkey
          exact .inl ⟨_, rfl, by rw [hfirst, Option.map_some, hkey]⟩
      | none =>
          rw [hfound] at hnames
          have hnone : earlier.find? (·.name = c.name) = none := Option.map_eq_none_iff.mp hnames.symm
          refine .inr ⟨_, rfl, by rw [hnone]; rfl, fun key => ?_, fun name => ?_⟩
          · rw [List.mem_cons, h.keys]
            simp only [List.mem_append, List.mem_singleton, or_and_right, exists_or, exists_eq_left]
            rw [or_comm, eq_comm]
          · -- The new class is found under its own name only, under which there was none before.
            rw [List.find?_append, List.find?_cons]
            by_cases hname : c.name = name
            · subst hname
              simp [hnone]
            · simp [hname, h.names]

/-- Seeing classes one after the other compares each with all before it. -/
theorem Tracks.foldlM (h : seen.Tracks earlier) (classes : List Class) :
    (match classes.foldlM Seen.add seen with | .error d => some d | .ok _ => none) =
      firstDefect? earlier classes := by
  induction classes generalizing seen earlier with
  | nil => rfl
  | cons c more ih =>
      rw [List.foldlM_cons, firstDefect?]
      rcases h.add (c := c) with ⟨d, hadd, hd⟩ | ⟨next, hadd, hd, hnext⟩
      · rw [hadd, hd]
        rfl
      · rw [hadd, hd]
        exact ih hnext

end Seen

theorem Model.defect?_eq_firstDefect? (m : Model) : m.defect? = firstDefect? [] m.classes :=
  Seen.tracks_nothing.foldlM m.classes

/-! ## No first defect -/

/-- One more item repeats nothing exactly when it is not there yet. -/
theorem nodup_map_concat {f : α → β} {xs : List α} {x : α} :
    ((xs ++ [x]).map f).Nodup ↔ f x ∉ xs.map f ∧ (xs.map f).Nodup := by
  rw [← List.concat_eq_append, List.map_concat, List.nodup_concat]

theorem Class.defect?_eq_none_iff {earlier : List Class} {c : Class} :
    c.defect? earlier = none ↔
      c.key ∉ earlier.map (·.key) ∧ allBlank c.name = false ∧ c.name ∉ earlier.map (·.name) := by
  have hkey : earlier.any (·.key = c.key) = true ↔ c.key ∈ earlier.map (·.key) := by
    simp [List.any_eq_true]
  unfold Class.defect?
  split
  · next h => simp [hkey.mp h]
  · next h =>
      rw [hkey] at h
      split
      · next hb => simp [hb]
      · next hb => simp [h, hb]

/-- Classes after others that are in order have no defect exactly when all are in order. -/
theorem firstDefect?_eq_none_iff {earlier classes : List Class}
    (hkeys : (earlier.map (·.key)).Nodup) (hnames : (earlier.map (·.name)).Nodup) :
    firstDefect? earlier classes = none ↔
      ((earlier ++ classes).map (·.key)).Nodup ∧ ((earlier ++ classes).map (·.name)).Nodup ∧
        ∀ c ∈ classes, allBlank c.name = false := by
  induction classes generalizing earlier with
  | nil => simp [firstDefect?, hkeys, hnames]
  | cons c more ih =>
      -- The class goes to the earlier ones, where the check puts it as well.
      have hsplit : earlier ++ c :: more = (earlier ++ [c]) ++ more := List.append_cons ..
      rw [firstDefect?, Option.or_eq_none_iff, Class.defect?_eq_none_iff, hsplit]
      constructor
      · rintro ⟨⟨hkey, hblank, hname⟩, hmore⟩
        obtain ⟨hk, hn, hb⟩ :=
          (ih (nodup_map_concat.mpr ⟨hkey, hkeys⟩) (nodup_map_concat.mpr ⟨hname, hnames⟩)).mp hmore
        exact ⟨hk, hn, List.forall_mem_cons.mpr ⟨hblank, hb⟩⟩
      · rintro ⟨hk, hn, hb⟩
        have hkeys' : ((earlier ++ [c]).map (·.key)).Nodup := by
          rw [List.map_append] at hk
          exact hk.of_append_left
        have hnames' : ((earlier ++ [c]).map (·.name)).Nodup := by
          rw [List.map_append] at hn
          exact hn.of_append_left
        obtain ⟨hblank, hb⟩ := List.forall_mem_cons.mp hb
        have hmore : firstDefect? (earlier ++ [c]) more = none := (ih hkeys' hnames').mpr ⟨hk, hn, hb⟩
        exact ⟨⟨(nodup_map_concat.mp hkeys').1, hblank, (nodup_map_concat.mp hnames').1⟩, hmore⟩

namespace Model

/-- The check through the classes in order finds nothing exactly in sound models. -/
theorem defect?_eq_none_iff {m : Model} : m.defect? = none ↔ m.Sound := by
  have hnone : (([] : List Class).map (·.key)).Nodup := List.nodup_nil
  have hnone' : (([] : List Class).map (·.name)).Nodup := List.nodup_nil
  rw [defect?_eq_firstDefect?, firstDefect?_eq_none_iff hnone hnone', List.nil_append]
  exact ⟨fun ⟨hk, hn, hb⟩ => ⟨hk, hn, hb⟩, fun h => ⟨h.keys, h.names, h.named⟩⟩

namespace Sound

variable {m : Model} (h : m.Sound) {c d : Class}
include h

/-! ## Classes by key and by name -/

theorem eq_of_key (hc : c ∈ m.classes) (hd : d ∈ m.classes) (hkey : c.key = d.key) : c = d :=
  List.inj_on_of_nodup_map h.keys hc hd hkey

theorem eq_of_name (hc : c ∈ m.classes) (hd : d ∈ m.classes) (hname : c.name = d.name) : c = d :=
  List.inj_on_of_nodup_map h.names hc hd hname

/-- The key of a class leads to that class. -/
theorem class?_eq (hc : c ∈ m.classes) : m.class? c.key = some c := by
  cases hfirst : m.class? c.key with
  | none =>
      have hnone := List.find?_eq_none.mp hfirst c hc
      simp at hnone
  | some d =>
      have hkey : d.key = c.key := by simpa using List.find?_some hfirst
      rw [h.eq_of_key (List.mem_of_find?_eq_some hfirst) hc hkey]

end Sound

end Model

end UmlSkeleton

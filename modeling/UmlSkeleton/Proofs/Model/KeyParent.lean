import Mathlib.Data.List.Find
import UmlSkeleton.Proofs.Inheritance
import UmlSkeleton.Proofs.Model.Sound

/-!
# Parents by key

Relationships lead from key to key, but the inheritance of a model is kept by name. `keyParent?` is
the parent of a class by key alone: no name is looked at. In a sound model keys and names lead to the
same classes, so a generalization starts from the name of a class exactly when it starts from its key,
and the first one that does decides in both ways (`Sound.parent?_eq`).
-/

namespace UmlSkeleton

namespace Model

variable {m : Model} {c : Class}

/-- A generalization from the key of a class to the key of any class. -/
def LinksUp (m : Model) (c : Class) (r : Relationship) : Prop :=
  r.kind = .known .generalization ∧ r.source = c.key ∧ ∃ p ∈ m.classes, p.key = r.target

instance (m : Model) (c : Class) (r : Relationship) : Decidable (m.LinksUp c r) :=
  inferInstanceAs (Decidable (_ ∧ _ ∧ _))

/-- The class that the first such generalization leads to. -/
def keyParent? (m : Model) (c : Class) : Option Class := do
  let r ← m.relationships.find? fun r => m.LinksUp c r
  m.class? r.target

theorem class?_ne_none_iff {key : Key} : m.class? key ≠ none ↔ ∃ p ∈ m.classes, p.key = key := by
  simp [class?, List.find?_eq_none]

/-- In a sound model the links with the name of a class are those from its key. -/
theorem Sound.link?_any_iff (h : m.Sound) (hc : c ∈ m.classes) (r : Relationship) :
    (m.link? r).any (·.child = c.name) = true ↔ m.LinksUp c r := by
  unfold link? LinksUp
  by_cases hk : r.kind = .known .generalization
  · rw [if_pos (RelationshipKind.isGeneralization_iff.mpr hk), endNames?_eq, ← class?_ne_none_iff]
    cases hsource : m.class? r.source with
    | none =>
        have hne : r.source ≠ c.key := by
          intro heq
          rw [heq, h.class?_eq hc] at hsource
          cases hsource
        simp [hne]
    | some d =>
        -- The source leads to a class `d`, which has the name of `c` only if it is `c`.
        have hd : d ∈ m.classes := List.mem_of_find?_eq_some hsource
        have hkey : d.key = r.source := by simpa using List.find?_some hsource
        have hname : d.name = c.name ↔ r.source = c.key := by
          rw [← hkey]
          constructor
          · intro heq
            rw [h.eq_of_name hd hc heq]
          · intro heq
            rw [h.eq_of_key hd hc heq]
        cases m.class? r.target with
        | none => simp
        | some p => simp [hk, hname]
  · rw [if_neg (by simpa [RelationshipKind.isGeneralization_iff] using hk)]
    simp [hk]

/-- In a sound model a class has the same parent by its name and by its key. -/
theorem Sound.parent?_eq (h : m.Sound) (hc : c ∈ m.classes) :
    m.inheritance.parent? c.name = (m.keyParent? c).map (·.name) := by
  have hup : ∀ r ∈ m.relationships,
      (m.link? r).any (·.child = c.name) = decide (m.LinksUp c r) := by
    intro r _
    rw [Bool.eq_iff_iff, h.link?_any_iff hc r, decide_eq_true_iff]
  rw [inheritance, generalizations_eq, Inheritance.parent?_ofLinks, List.find?_filterMap,
    List.find?_congr hup, keyParent?]
  cases hfirst : m.relationships.find? fun r => m.LinksUp c r with
  | none => rfl
  | some r =>
      have hr : m.LinksUp c r := by simpa using List.find?_some hfirst
      obtain ⟨hk, hsource, -⟩ := hr
      show (m.link? r).map (·.parent) = (m.class? r.target).map (·.name)
      rw [link?, if_pos (RelationshipKind.isGeneralization_iff.mpr hk), endNames?_eq, hsource,
        h.class?_eq hc]
      cases m.class? r.target with
      | none => rfl
      | some p => rfl

/-! ## Conflicts by key -/

/-- A generalization between two classes is rejected if the first one from the same class leads to another
parent. -/
def rejection? (m : Model) (r : Relationship) : Option Conflict :=
  if r.kind = .known .generalization then do
    let child ← m.class? r.source
    let parent ← m.class? r.target
    let kept ← m.keyParent? child
    if kept.key = parent.key then none else some ⟨child.name, kept.name, parent.name⟩
  else none

theorem mem_classes_of_keyParent? {p : Class} (h : m.keyParent? c = some p) : p ∈ m.classes := by
  obtain ⟨r, -, hr⟩ := Option.bind_eq_some_iff.mp h
  exact List.mem_of_find?_eq_some hr

/-- In a sound model the conflicts of the inheritance are those by key. -/
theorem Sound.conflicts_eq (h : m.Sound) :
    m.inheritance.conflicts = m.relationships.filterMap m.rejection? := by
  have hconflict (r : Relationship) :
      (m.link? r).bind (Link.conflictAmong m.generalizations) = m.rejection? r := by
    unfold link? rejection?
    by_cases hk : r.kind = .known .generalization
    · rw [if_pos (RelationshipKind.isGeneralization_iff.mpr hk), if_pos hk, endNames?_eq]
      cases hsource : m.class? r.source with
      | none => rfl
      | some child =>
          cases htarget : m.class? r.target with
          | none => rfl
          | some parent =>
              have hparent := h.parent?_eq (List.mem_of_find?_eq_some hsource)
              rw [inheritance, Inheritance.parent?_ofLinks] at hparent
              show Link.conflictAmong m.generalizations ⟨child.name, parent.name⟩ =
                (m.keyParent? child).bind fun kept =>
                  if kept.key = parent.key then none else some ⟨child.name, kept.name, parent.name⟩
              unfold Link.conflictAmong
              cases hkept : m.keyParent? child with
              | none =>
                  rw [hkept, Option.map_none, Option.map_eq_none_iff] at hparent
                  rw [hparent]
                  rfl
              | some kept =>
                  rw [hkept, Option.map_some] at hparent
                  obtain ⟨first, hfirst, hname⟩ := Option.map_eq_some_iff.mp hparent
                  -- Both parents are classes, so they have the same name only if they have the same key.
                  have hsame : kept.name = parent.name ↔ kept.key = parent.key := by
                    have hk := mem_classes_of_keyParent? hkept
                    have hp : parent ∈ m.classes := List.mem_of_find?_eq_some htarget
                    exact ⟨fun heq => by rw [h.eq_of_name hk hp heq],
                      fun heq => by rw [h.eq_of_key hk hp heq]⟩
                  rw [hfirst]
                  simp [hname, hsame]
    · rw [if_neg (by simpa [RelationshipKind.isGeneralization_iff] using hk), if_neg hk]
      rfl
  rw [inheritance, (Inheritance.tracks_ofLinks _).conflicts_eq, filterMap_conflict?_fates,
    List.nil_append]
  conv_lhs => rw [generalizations_eq, List.filterMap_filterMap, ← generalizations_eq]
  exact congrArg (m.relationships.filterMap ·) (funext hconflict)

end Model

end UmlSkeleton

import UmlSkeleton.Trailer

/-!
# What relationships see of a class

A relationship is resolved by the keys of the classes, and all that inheritance and the trailer take
from the classes it leads to is their names. So both depend on a class only through its `face`, the
key and the name, and never on its members.
-/

namespace UmlSkeleton

/-- What a class shows to relationships. -/
def Class.face (c : Class) : Key × String := (c.key, c.name)

/-- A relationship is described by the names at its ends. -/
theorem Relationship.describe_eq (r : Relationship) (source target : Class) :
    r.describe source target =
      source.name ++ " " ++ r.kind.text ++ " " ++ target.name ++
        r.effectiveMultiplicity.elim "" (fun m => " (Multiplicity: " ++ m ++ ")") := by
  unfold Relationship.describe
  cases r.effectiveMultiplicity with
  | none => simp
  | some m => simp [String.append_assoc]

namespace Model

/-- The names of the classes at both ends of a relationship. -/
def endNames? (m : Model) (r : Relationship) : Option (String × String) :=
  (m.ends? r).map fun (source, target) => (source.name, target.name)

/-! ## Ends -/

theorem ends?_eq_some_iff {m : Model} {r : Relationship} {source other : Class} :
    m.ends? r = some (source, other) ↔
      m.class? r.source = some source ∧ m.class? r.target = some other := by
  unfold ends?
  cases m.class? r.source with
  | none => simp
  | some c =>
      cases m.class? r.target with
      | none => simp
      | some d => simp

theorem mem_resolved_iff {m : Model} {r : Relationship} {ends : Class × Class} :
    (r, ends) ∈ m.resolved ↔ r ∈ m.relationships ∧ m.ends? r = some ends := by
  simp only [resolved, List.mem_filterMap, Option.map_eq_some_iff, Prod.mk.injEq]
  constructor
  · rintro ⟨r, hr, ends, hends, rfl, rfl⟩
    exact ⟨hr, hends⟩
  · rintro ⟨hr, hends⟩
    exact ⟨r, hr, ends, hends, rfl, rfl⟩

/-- Both ends of a relationship that resolves are classes of the model. -/
theorem mem_classes_of_mem_resolved {m : Model} {r : Relationship} {source other : Class}
    (h : (r, source, other) ∈ m.resolved) : source ∈ m.classes ∧ other ∈ m.classes := by
  obtain ⟨hsource, hother⟩ := ends?_eq_some_iff.mp (mem_resolved_iff.mp h).2
  exact ⟨List.mem_of_find?_eq_some hsource, List.mem_of_find?_eq_some hother⟩

/-! ## Names by keys -/

theorem class?_map_name (m : Model) (key : Key) :
    (m.class? key).map (·.name) = ((m.classes.map Class.face).find? (·.1 = key)).map (·.2) := by
  rw [List.find?_map, Option.map_map]
  rfl

theorem endNames?_eq (m : Model) (r : Relationship) :
    m.endNames? r = do
      return (← (m.class? r.source).map (·.name), ← (m.class? r.target).map (·.name)) := by
  unfold endNames? ends?
  cases m.class? r.source with
  | none => rfl
  | some source =>
      cases m.class? r.target with
      | none => rfl
      | some target => rfl

/-- Models whose classes have the same faces resolve a relationship to the same names. -/
theorem endNames?_congr {m n : Model} (h : m.classes.map Class.face = n.classes.map Class.face)
    (r : Relationship) : m.endNames? r = n.endNames? r := by
  simp only [endNames?_eq, class?_map_name, h]

/-! ## Inheritance and trailer by names -/

/-- The link of a relationship, if it is a generalization that resolves. -/
def link? (m : Model) (r : Relationship) : Option Link :=
  if r.kind.isGeneralization then (m.endNames? r).map fun (c, p) => ⟨c, p⟩ else none

theorem generalizations_eq (m : Model) : m.generalizations = m.relationships.filterMap m.link? := by
  unfold generalizations resolved
  rw [List.filterMap_filterMap]
  congr 1
  funext r
  unfold link? endNames?
  cases m.ends? r with
  | none => simp
  | some ends => rfl

theorem trailerLines_eq (m : Model) (target : Target) :
    m.trailerLines target = (target.comment ++ " Relationships:") ::
      m.relationships.filterMap fun r => (m.endNames? r).map fun (source, other) =>
        target.comment ++ " " ++ (source ++ " " ++ r.kind.text ++ " " ++ other ++
          r.effectiveMultiplicity.elim "" (fun m => " (Multiplicity: " ++ m ++ ")")) := by
  unfold trailerLines resolved
  rw [List.map_filterMap]
  congr 2
  funext r
  unfold endNames?
  cases m.ends? r with
  | none => rfl
  | some ends => simp [Relationship.describe_eq]

/-! ## Models with the same outline -/

section
variable {m n : Model} (hc : m.classes.map Class.face = n.classes.map Class.face)
  (hr : m.relationships = n.relationships)
include hc hr

theorem inheritance_congr : m.inheritance = n.inheritance := by
  have hlink : m.link? = n.link? := by
    funext r
    rw [link?, endNames?_congr hc, link?]
  rw [inheritance, generalizations_eq, hlink, hr, ← generalizations_eq, inheritance]

theorem trailer_congr (target : Target) : m.trailer target = n.trailer target := by
  unfold trailer
  simp only [trailerLines_eq, endNames?_congr hc, hr]

end

end Model

end UmlSkeleton

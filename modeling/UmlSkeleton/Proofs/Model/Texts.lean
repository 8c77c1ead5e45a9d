import UmlSkeleton.Proofs.Inheritance

/-!
# The texts of a model

All that a model has of free text: the names, the types as they were written, visibilities, kinds, labels
and multiplicities. A property of all of them is taken apart along the parts of the model. The parent of
a class is one of them, because it is the name of a class (`exists_class_of_parent?`).

Not all of it can come into a skeleton. A visibility is only ever read, and nobody looks at a label; what
is written as it stands are names, types, kinds and multiplicities (`Model.written`).
-/

namespace UmlSkeleton

def Parameter.texts (p : Parameter) : List String := [p.name, p.type.raw]

def Property.texts (p : Property) : List String := [p.name, p.type.raw, p.visibility.text]

def Method.texts (f : Method) : List String :=
  [f.name, f.type.raw, f.visibility.text] ++ f.parameters.flatMap Parameter.texts

def Class.texts (c : Class) : List String :=
  c.name :: (c.properties.flatMap Property.texts ++ c.methods.flatMap Method.texts)

def Relationship.texts (r : Relationship) : List String :=
  r.kind.text :: (r.label.toList ++ r.multiplicity.toList)

def Model.texts (m : Model) : List String :=
  m.classes.flatMap Class.texts ++ m.relationships.flatMap Relationship.texts

variable {p : String → Prop}

theorem Method.forall_texts_iff {f : Method} :
    (∀ t ∈ f.texts, p t) ↔ (p f.name ∧ p f.type.raw ∧ p f.visibility.text) ∧
      ∀ a ∈ f.parameters, p a.name ∧ p a.type.raw := by
  unfold texts
  rw [List.forall_mem_append, List.forall_mem_flatMap]
  simp [Parameter.texts]

theorem Class.forall_texts_iff {c : Class} :
    (∀ t ∈ c.texts, p t) ↔ p c.name ∧
      (∀ a ∈ c.properties, p a.name ∧ p a.type.raw ∧ p a.visibility.text) ∧
      ∀ f ∈ c.methods, ∀ t ∈ f.texts, p t := by
  unfold texts
  rw [List.forall_mem_cons, List.forall_mem_append, List.forall_mem_flatMap,
    List.forall_mem_flatMap]
  simp [Property.texts]

theorem Model.forall_texts_iff {m : Model} :
    (∀ t ∈ m.texts, p t) ↔ (∀ c ∈ m.classes, ∀ t ∈ c.texts, p t) ∧
      ∀ r ∈ m.relationships, p r.kind.text ∧ (∀ t ∈ r.label, p t) ∧ ∀ t ∈ r.multiplicity, p t := by
  unfold texts
  rw [List.forall_mem_append, List.forall_mem_flatMap, List.forall_mem_flatMap]
  simp [Relationship.texts, or_imp, forall_and]

/-! ## What is written -/

/-- The names of the class, its members and their parameters. -/
def Class.names (c : Class) : List String :=
  c.name :: (c.properties.map (·.name) ++ c.methods.flatMap fun f => f.name :: f.parameters.map (·.name))

/-- The types of its members and their parameters, as they were written. -/
def Class.typeTexts (c : Class) : List String :=
  c.properties.map (·.type.raw) ++ c.methods.flatMap fun f => f.type.raw :: f.parameters.map (·.type.raw)

def Class.written (c : Class) : List String := c.names ++ c.typeTexts

def Relationship.written (r : Relationship) : List String := r.kind.text :: r.multiplicity.toList

def Model.names (m : Model) : List String := m.classes.flatMap Class.names

def Model.typeTexts (m : Model) : List String := m.classes.flatMap Class.typeTexts

def Model.written (m : Model) : List String :=
  m.classes.flatMap Class.written ++ m.relationships.flatMap Relationship.written

theorem Class.forall_names_iff {c : Class} :
    (∀ t ∈ c.names, p t) ↔ p c.name ∧ (∀ a ∈ c.properties, p a.name) ∧
      ∀ f ∈ c.methods, p f.name ∧ ∀ a ∈ f.parameters, p a.name := by
  unfold names
  rw [List.forall_mem_cons, List.forall_mem_append, List.forall_mem_flatMap]
  simp

theorem Class.forall_typeTexts_iff {c : Class} :
    (∀ t ∈ c.typeTexts, p t) ↔ (∀ a ∈ c.properties, p a.type.raw) ∧
      ∀ f ∈ c.methods, p f.type.raw ∧ ∀ a ∈ f.parameters, p a.type.raw := by
  unfold typeTexts
  rw [List.forall_mem_append, List.forall_mem_flatMap]
  simp

theorem Class.forall_written_iff {c : Class} :
    (∀ t ∈ c.written, p t) ↔ (∀ t ∈ c.names, p t) ∧ ∀ t ∈ c.typeTexts, p t :=
  List.forall_mem_append

theorem Model.forall_written_iff {m : Model} :
    (∀ t ∈ m.written, p t) ↔ (∀ c ∈ m.classes, ∀ t ∈ c.written, p t) ∧
      ∀ r ∈ m.relationships, p r.kind.text ∧ ∀ t ∈ r.multiplicity, p t := by
  unfold written
  rw [List.forall_mem_append, List.forall_mem_flatMap, List.forall_mem_flatMap]
  simp [Relationship.written]

/-- What is written is part of the model's texts. -/
theorem Model.forall_written {m : Model} (h : ∀ t ∈ m.texts, p t) : ∀ t ∈ m.written, p t := by
  obtain ⟨hclasses, hrelationships⟩ := forall_texts_iff.mp h
  refine forall_written_iff.mpr ⟨fun c hc => ?_, fun r hr => ?_⟩
  · obtain ⟨hname, hproperties, hmethods⟩ := Class.forall_texts_iff.mp (hclasses c hc)
    have hmethod (f : Method) (hf : f ∈ c.methods) := Method.forall_texts_iff.mp (hmethods f hf)
    refine Class.forall_written_iff.mpr ⟨Class.forall_names_iff.mpr ⟨hname, ?_, ?_⟩,
      Class.forall_typeTexts_iff.mpr ⟨?_, ?_⟩⟩
    · exact fun a ha => (hproperties a ha).1
    · exact fun f hf => ⟨(hmethod f hf).1.1, fun a ha => ((hmethod f hf).2 a ha).1⟩
    · exact fun a ha => (hproperties a ha).2.1
    · exact fun f hf => ⟨(hmethod f hf).1.2.1, fun a ha => ((hmethod f hf).2 a ha).2⟩
  · exact ⟨(hrelationships r hr).1, (hrelationships r hr).2.2⟩

/-! ## Types and parents -/

/-- A type says a known type, or it is custom and names none. -/
theorem TypeName.token_cases (t : TypeName) :
    (∃ type, t.token = .known type) ∨ KnownType.ofText? t.raw = none ∧ t.token = .custom t.raw := by
  unfold token TypeToken.ofText
  cases KnownType.ofText? t.raw with
  | some type => exact .inl ⟨type, rfl⟩
  | none => exact .inr ⟨rfl, rfl⟩

/-- A parent is the name of a class. -/
theorem Model.exists_class_of_parent? {m : Model} {child parent : String}
    (h : m.inheritance.parent? child = some parent) : ∃ c ∈ m.classes, c.name = parent := by
  rw [inheritance, Inheritance.parent?_ofLinks] at h
  obtain ⟨link, hfirst, rfl⟩ := Option.map_eq_some_iff.mp h
  obtain ⟨⟨r, c, d⟩, hresolved, hlink⟩ := List.mem_filterMap.mp (List.mem_of_find?_eq_some hfirst)
  have hd : d ∈ m.classes := (mem_classes_of_mem_resolved hresolved).2
  simp only at hlink
  split at hlink
  · cases hlink
    exact ⟨d, hd, rfl⟩
  · cases hlink

theorem Model.forall_mem_name {m : Model} (h : ∀ t ∈ m.written, p t) : ∀ c ∈ m.classes, p c.name :=
  fun c hc => (Class.forall_names_iff.mp
    (Class.forall_written_iff.mp ((forall_written_iff.mp h).1 c hc)).1).1

theorem Model.forall_mem_parent? {m : Model} (h : ∀ c ∈ m.classes, p c.name) (child : String) :
    ∀ parent ∈ m.inheritance.parent? child, p parent := by
  intro parent hparent
  obtain ⟨c, hc, rfl⟩ := exists_class_of_parent? hparent
  exact h c hc

end UmlSkeleton

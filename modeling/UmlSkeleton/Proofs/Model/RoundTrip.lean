import UmlSkeleton.Model.Document
import UmlSkeleton.Proofs.Json.RoundTrip

/-!
# Models survive being written

A format is *lawful* when no record of it has two fields of one name and the way to a document's values
leads back. `Format.Lawful.decode_tree` then takes a value through text and back. All formats of a model
are lawful: the texts of visibilities and kinds name them again (`Visibility.ofText_text`,
`RelationshipKind.ofText_text`), and a type is its text.
-/

namespace UmlSkeleton

open Json

/-! ## Lawful formats -/

/-- Nothing is lost on the way to a document's values. -/
structure Format.Lawful (f : Format α) : Prop where
  distinct : f.shape.distinct = true
  ofValue_toValue : ∀ a, f.ofValue (f.toValue a) = a

theorem Format.decode_eq_ok {f : Format α} {text : String} {value : f.shape.Value}
    (h : f.shape.reader.document text = .ok value) : f.decode text = .ok (f.ofValue value) := by
  rw [decode, h]
  rfl

/-- A value is read back from its tree, in both ways of writing. -/
theorem Format.Lawful.decode_tree {f : Format α} (h : f.Lawful) (a : α) :
    f.decode (f.tree a).pretty = .ok a ∧ f.decode (f.tree a).compact = .ok a := by
  constructor
  · rw [Format.tree, Format.decode_eq_ok (Shape.document_pretty h.distinct _), h.ofValue_toValue]
  · rw [Format.tree, Format.decode_eq_ok (Shape.document_compact h.distinct _), h.ofValue_toValue]

theorem Format.Lawful.map_ofValue {f : Format α} (h : f.Lawful) (items : List α) :
    (items.map f.toValue).map f.ofValue = items := by
  rw [List.map_map]
  exact List.map_id'' h.ofValue_toValue items

/-! ## Tokens -/

theorem Access.ofText?_word (a : Access) : Access.ofText? a.word = some a := by
  cases a <;> decide

/-- The text of a visibility names it. -/
theorem Visibility.ofText_text (v : Visibility) : ofText v.text = v := by
  unfold ofText
  cases v with
  | level access =>
      -- The word of a level is in the table.
      have hword : Access.ofText? (level access).text = some access := access.ofText?_word
      split
      · next h => rw [hword] at h; cases h; rfl
      · next h => rw [hword] at h; cases h
  | other text unknown =>
      split
      · next h => rw [show (other text unknown).text = text from rfl, unknown] at h; cases h
      · rfl

theorem KnownKind.ofText?_word (k : KnownKind) : ofText? k.word = some k := by
  cases k <;> decide

/-- The text of a kind names it. -/
theorem RelationshipKind.ofText_text (k : RelationshipKind) : ofText k.text = k := by
  unfold ofText
  cases k with
  | known kind =>
      have hword : KnownKind.ofText? (known kind).text = some kind := kind.ofText?_word
      split
      · next h => rw [hword] at h; cases h; rfl
      · next h => rw [hword] at h; cases h
  | other text unknown =>
      split
      · next h => rw [show (other text unknown).text = text from rfl, unknown] at h; cases h
      · rfl

/-! ## All formats are lawful -/

theorem Parameter.lawful : Parameter.format.Lawful := ⟨by decide, fun _ => rfl⟩

theorem Property.lawful : Property.format.Lawful := by
  refine ⟨by decide, ?_⟩
  rintro ⟨name, type, visibility⟩
  show (⟨name, type, Visibility.ofText visibility.text⟩ : Property) = _
  rw [Visibility.ofText_text]

theorem Method.lawful : Method.format.Lawful := by
  refine ⟨by decide, ?_⟩
  rintro ⟨name, type, visibility, parameters⟩
  show (⟨name, type, Visibility.ofText visibility.text,
    (parameters.map Parameter.format.toValue).map Parameter.format.ofValue⟩ : Method) = _
  rw [Visibility.ofText_text, Parameter.lawful.map_ofValue]

theorem Class.lawful : Class.format.Lawful := by
  refine ⟨by decide, ?_⟩
  rintro ⟨key, name, properties, methods⟩
  show (⟨key, name, (properties.map Property.format.toValue).map Property.format.ofValue,
    (methods.map Method.format.toValue).map Method.format.ofValue⟩ : Class) = _
  rw [Property.lawful.map_ofValue, Method.lawful.map_ofValue]

theorem Relationship.lawful : Relationship.format.Lawful := by
  refine ⟨by decide, ?_⟩
  rintro ⟨source, target, kind, label, multiplicity⟩
  show (⟨source, target, RelationshipKind.ofText kind.text, label, multiplicity⟩ : Relationship) = _
  rw [RelationshipKind.ofText_text]

/-! ## Reading, writing, reading -/

section
variable {read : String → Except ε α} {write : α → String} (h : ∀ a, read (write a) = .ok a)
include h

theorem read_write_read (text : String) : (do let a ← read text; read (write a)) = read text := by
  cases read text with
  | error e => rfl
  | ok a => exact h a

theorem write_read_write_read (text : String) :
    (do let a ← read text; let b ← read (write a); return write b) =
      (do let a ← read text; return write a) := by
  cases read text with
  | error e => rfl
  | ok a =>
      show (read (write a) >>= _) = _
      rw [h a]

end

namespace Model

theorem lawful : format.Lawful := by
  refine ⟨by decide, ?_⟩
  rintro ⟨classes, relationships⟩
  show (⟨(classes.map Class.format.toValue).map Class.format.ofValue,
    (relationships.map Relationship.format.toValue).map Relationship.format.ofValue⟩ : Model) = _
  rw [Class.lawful.map_ofValue, Relationship.lawful.map_ofValue]

/-! ## Models -/

theorem decode_pretty (m : Model) : decode m.pretty = .ok m := (lawful.decode_tree m).1

theorem decode_compact (m : Model) : decode m.compact = .ok m := (lawful.decode_tree m).2

/-- **Round trip.** Every model, however it came about, is read back from what is written of it. So
for every text, reading what was read and written again gives what was read at first, or the same
fault; and writing that again gives the same text. -/
theorem round_trip :
    (∀ m : Model, decode m.pretty = .ok m ∧ decode m.compact = .ok m) ∧
      ∀ text : String,
        (do let m ← decode text; decode m.pretty) = decode text ∧
        (do let m ← decode text; decode m.compact) = decode text ∧
        (do let m ← decode text; let n ← decode m.pretty; return n.pretty) =
          (do let m ← decode text; return m.pretty) ∧
        (do let m ← decode text; let n ← decode m.compact; return n.compact) =
          (do let m ← decode text; return m.compact) := by
  refine ⟨fun m => ⟨m.decode_pretty, m.decode_compact⟩, fun text => ⟨?_, ?_, ?_, ?_⟩⟩
  · exact read_write_read decode_pretty text
  · exact read_write_read decode_compact text
  · exact write_read_write_read decode_pretty text
  · exact write_read_write_read decode_compact text

end Model

end UmlSkeleton

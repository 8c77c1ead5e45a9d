import UmlSkeleton.Json.Record
import UmlSkeleton.Model.Basic

/-!
# Models as documents

How each part of a model is written in a document: its shape, and the way from what is found there
to the part and back. A type, a visibility or a kind is a string that may be missing or `null`; a
label or a multiplicity may be missing too, and stays so; lists may be missing when they are empty.
-/

namespace UmlSkeleton

open Json

/-- How the values of a type are written in a document. -/
structure Format (α : Type) where
  shape : Shape
  ofValue : shape.Value → α
  toValue : α → shape.Value

namespace Format

/-- Read a whole text. -/
def decode (f : Format α) (text : String) : Except DecodeError α :=
  (f.shape.reader.document text).map f.ofValue

/-- The tree of a value. -/
def tree (f : Format α) (a : α) : Tree := f.shape.tree (f.toValue a)

end Format

/-! ### Types, visibilities and kinds -/

def TypeName.format : Format TypeName where
  shape := .optionalText
  ofValue := TypeName.ofOption
  toValue t := some t.raw

def Visibility.format : Format Visibility where
  shape := .optionalText
  ofValue := Visibility.ofOption
  toValue v := some v.text

def RelationshipKind.format : Format RelationshipKind where
  shape := .optionalText
  ofValue := RelationshipKind.ofOption
  toValue k := some k.text

/-! ### Records -/

def Parameter.format : Format Parameter where
  shape := .record "ParameterDef" <| .cons "name" .text <| .cons "type" .optionalText <| .nil
  ofValue | (name, type, ()) => ⟨name, .ofOption type⟩
  toValue p := (p.name, some p.type.raw, ())

def Property.format : Format Property where
  shape := .record "PropertyDef" <| .cons "name" .text <| .cons "type" .optionalText <|
    .cons "visibility" .optionalText <| .nil
  ofValue | (name, type, visibility, ()) => ⟨name, .ofOption type, .ofOption visibility⟩
  toValue p := (p.name, some p.type.raw, some p.visibility.text, ())

def Method.format : Format Method where
  shape := .record "MethodDef" <| .cons "name" .text <| .cons "type" .optionalText <|
    .cons "visibility" .optionalText <| .cons "parameters" (.list Parameter.format.shape) <| .nil
  ofValue
    | (name, type, visibility, parameters, ()) =>
      ⟨name, .ofOption type, .ofOption visibility, parameters.map Parameter.format.ofValue⟩
  toValue m :=
    (m.name, some m.type.raw, some m.visibility.text, m.parameters.map Parameter.format.toValue, ())

def Class.format : Format Class where
  shape := .record "ClassDef" <| .cons "key" .integer <| .cons "name" .text <|
    .cons "properties" (.list Property.format.shape) <|
    .cons "methods" (.list Method.format.shape) <| .nil
  ofValue
    | (key, name, properties, methods, ()) =>
      ⟨key, name, properties.map Property.format.ofValue, methods.map Method.format.ofValue⟩
  toValue c :=
    (c.key, c.name, c.properties.map Property.format.toValue, c.methods.map Method.format.toValue,
      ())

def Relationship.format : Format Relationship where
  shape := .record "RelationshipDef" <| .cons "from" .integer <| .cons "to" .integer <|
    .cons "type" .optionalText <| .cons "label" .optionalText <|
    .cons "multiplicity" .optionalText <| .nil
  ofValue
    | (source, target, kind, label, multiplicity, ()) =>
      ⟨source, target, .ofOption kind, label, multiplicity⟩
  toValue r := (r.source, r.target, some r.kind.text, r.label, r.multiplicity, ())

def Model.format : Format Model where
  shape := .record "ClassModel" <| .cons "classes" (.list Class.format.shape) <|
    .cons "relationships" (.list Relationship.format.shape) <| .nil
  ofValue
    | (classes, relationships, ()) =>
      ⟨classes.map Class.format.ofValue, relationships.map Relationship.format.ofValue⟩
  toValue m :=
    (m.classes.map Class.format.toValue, m.relationships.map Relationship.format.toValue, ())

/-! ### Whole models -/

/-- Read a model from the text of a document. -/
def Model.decode (text : String) : Except DecodeError Model := Model.format.decode text

/-- The document of a model, one item or member a line. -/
def Model.pretty (m : Model) : String := (Model.format.tree m).pretty

/-- The document of a model, without white space. -/
def Model.compact (m : Model) : String := (Model.format.tree m).compact

end UmlSkeleton

import UmlSkeleton.Json.Tree

/-!
# Shapes of documents

A `Shape` describes what a place in a document holds: an integer of 64 bits, a string, a string or
nothing, a list of one shape, or a record of named fields. `Shape.Value` is the type of what is
found there. A field may be missing exactly when its shape has an empty value: nothing, or the
empty list.
-/

namespace UmlSkeleton.Json

mutual

/-- What a place in a document holds. -/
inductive Shape where
  | integer
  | text
  | optionalText
  | list (item : Shape)
  | record (name : String) (fields : Fields)

/-- The fields of a record, in the order in which they are declared. -/
inductive Fields where
  | nil
  | cons (name : String) (shape : Shape) (rest : Fields)

end

/-! ### What is found -/

mutual

/-- The values of a shape. -/
def Shape.Value : Shape → Type
  | .integer => Int64
  | .text => String
  | .optionalText => Option String
  | .list item => List item.Value
  | .record _ fields => fields.Values

/-- The values of all fields of a record. -/
def Fields.Values : Fields → Type
  | .nil => Unit
  | .cons _ shape rest => shape.Value × rest.Values

end

/-- The fields found so far. -/
def Fields.Slots : Fields → Type
  | .nil => Unit
  | .cons _ shape rest => Option shape.Value × rest.Slots

/-- No field found yet. -/
def Fields.vacant : (fields : Fields) → fields.Slots
  | .nil => ()
  | .cons _ _ rest => (none, rest.vacant)

/-- The value that stands for a missing field. -/
def Shape.empty? : (shape : Shape) → Option shape.Value
  | .integer => none
  | .text => none
  | .optionalText => some none
  | .list _ => some []
  | .record _ _ => none

/-- How many fields a record has. -/
def Fields.count : Fields → Nat
  | .nil => 0
  | .cons _ _ rest => rest.count + 1

/-- All fields, those not found being empty. The error is the first that may not be missing. -/
def Fields.complete : (fields : Fields) → fields.Slots → Except String fields.Values
  | .nil, () => .ok ()
  | .cons name shape rest, (slot, slots) =>
    match slot <|> shape.empty? with
    | none => .error name
    | some value => (rest.complete slots).map (value, ·)

/-! ### As a tree -/

/-- A string that is not there is not written. -/
def Shape.isAbsent : (shape : Shape) → shape.Value → Bool
  | .optionalText, value => Option.isNone (α := String) value
  | _, _ => false

mutual

/-- The tree of a value. -/
def Shape.tree : (shape : Shape) → shape.Value → Tree
  | .integer, value => .integer (Int64.toInt value)
  | .text, value => .text value
  | .optionalText, value => (value : Option String).elim .null .text
  | .list item, values => .list (List.map item.tree values)
  | .record _ fields, values => .object (fields.members values)

/-- The members of a record, in the order of its fields. -/
def Fields.members : (fields : Fields) → fields.Values → List (String × Tree)
  | .nil, _ => []
  | .cons name shape rest, (value, values) =>
    if shape.isAbsent value then rest.members values
    else (name, shape.tree value) :: rest.members values

end

end UmlSkeleton.Json

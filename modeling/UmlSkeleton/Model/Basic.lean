import UmlSkeleton.Model.RelationshipKind
import UmlSkeleton.Model.TypeName
import UmlSkeleton.Model.Visibility

/-!
# Class models

A class model is a list of classes and a list of relationships between them. Classes are known to
relationships by their keys. A relationship *resolves* when both its ends are keys of classes;
otherwise it dangles. Where a key or a name occurs twice, the first class is meant.
-/

namespace UmlSkeleton

/-- The key of a class: any integer of 64 bits. -/
abbrev Key := Int64

structure Parameter where
  name : String
  type : TypeName
  deriving DecidableEq

structure Property where
  name : String
  type : TypeName
  visibility : Visibility
  deriving DecidableEq

structure Method where
  name : String
  type : TypeName
  visibility : Visibility
  parameters : List Parameter
  deriving DecidableEq

structure Class where
  key : Key
  name : String
  properties : List Property
  methods : List Method
  deriving DecidableEq

structure Relationship where
  source : Key
  target : Key
  kind : RelationshipKind
  label : Option String
  multiplicity : Option String
  deriving DecidableEq

structure Model where
  classes : List Class
  relationships : List Relationship
  deriving DecidableEq

/-! ### Members made by hand

A member that is not read from a document has no type and no visibility until it is given them,
except that a method returns nothing. -/

def Parameter.named (name : String) : Parameter := ⟨name, ⟨""⟩⟩

def Property.named (name : String) : Property := ⟨name, ⟨""⟩, .ofText ""⟩

def Method.named (name : String) : Method := ⟨name, ⟨"void"⟩, .ofText "", []⟩

/-- The multiplicity, unless it is empty. -/
def Relationship.effectiveMultiplicity (r : Relationship) : Option String :=
  r.multiplicity.filter (· ≠ "")

namespace Model

/-- No classes and no relationships. -/
def empty : Model := ⟨[], []⟩

def isEmpty (m : Model) : Bool := m.classes.isEmpty && m.relationships.isEmpty

def addClass (m : Model) (c : Class) : Model := { m with classes := m.classes ++ [c] }

def addRelationship (m : Model) (r : Relationship) : Model :=
  { m with relationships := m.relationships ++ [r] }

/-- Classes and relationships in the opposite order. -/
def reverse (m : Model) : Model := ⟨m.classes.reverse, m.relationships.reverse⟩

/-! ### Looking up -/

/-- The first class with this key. -/
def class? (m : Model) (key : Key) : Option Class := m.classes.find? (·.key = key)

/-- The first class with this name. -/
def classNamed? (m : Model) (name : String) : Option Class := m.classes.find? (·.name = name)

/-- The classes at both ends of a relationship. -/
def ends? (m : Model) (r : Relationship) : Option (Class × Class) := do
  return (← m.class? r.source, ← m.class? r.target)

/-- The relationships that resolve, each with the classes at its ends. -/
def resolved (m : Model) : List (Relationship × Class × Class) :=
  m.relationships.filterMap fun r => (m.ends? r).map (r, ·)

/-- The relationships that dangle. -/
def dangling (m : Model) : List Relationship :=
  m.relationships.filter fun r => (m.ends? r).isNone

end Model

end UmlSkeleton

/-!
# Kinds of relationships

Six words name the kinds of relationships between classes, in exactly this spelling. Only a
generalization changes what is written for a class. Every other text is kept as it was written,
with a proof that it is none of the six.
-/

namespace UmlSkeleton

/-- The kinds of relationships that have a name of their own. -/
inductive KnownKind where
  | generalization
  | association
  | composition
  | aggregation
  | realization
  | dependency
  deriving DecidableEq, Repr

namespace KnownKind

/-- All of them. -/
def all : List KnownKind :=
  [.generalization, .association, .composition, .aggregation, .realization, .dependency]

def word : KnownKind → String
  | .generalization => "generalization"
  | .association => "association"
  | .composition => "composition"
  | .aggregation => "aggregation"
  | .realization => "realization"
  | .dependency => "dependency"

/-- The kind that a text names. -/
def ofText? (s : String) : Option KnownKind := all.find? (·.word = s)

end KnownKind

/-- The kind of a relationship: a named one, or a text that is no such name. -/
inductive RelationshipKind where
  | known (kind : KnownKind)
  | other (text : String) (unknown : KnownKind.ofText? text = none)
  deriving DecidableEq

namespace RelationshipKind

def ofText (s : String) : RelationshipKind :=
  match h : KnownKind.ofText? s with
  | some kind => .known kind
  | none => .other s h

/-- The kind of a relationship that names none. -/
def ofOption (s : Option String) : RelationshipKind := ofText (s.getD "")

/-- The name, or the text as it was written. -/
def text : RelationshipKind → String
  | .known kind => kind.word
  | .other text _ => text

def isGeneralization : RelationshipKind → Bool
  | .known .generalization => true
  | _ => false

end RelationshipKind

end UmlSkeleton

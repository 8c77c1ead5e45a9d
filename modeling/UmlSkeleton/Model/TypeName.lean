import UmlSkeleton.Text.Case

/-!
# Type texts

The type of a property, a method or a parameter is a text. Six words, in any case and with any
blanks around them, are known in every language; all other texts are custom types. The text itself
is kept as it was written.
-/

namespace UmlSkeleton

open Text

/-- The types that every language knows. -/
inductive KnownType where
  | string
  | int
  | double
  | float
  | boolean
  | void
  deriving DecidableEq, Repr

namespace KnownType

/-- All of them. -/
def all : List KnownType := [.string, .int, .double, .float, .boolean, .void]

/-- The word for a known type. -/
def word : KnownType → String
  | .string => "string"
  | .int => "int"
  | .double => "double"
  | .float => "float"
  | .boolean => "boolean"
  | .void => "void"

/-- The known type whose word a text is, blanks and case aside. -/
def ofText? (s : String) : Option KnownType := all.find? (·.word = fold s)

end KnownType

/-- What a type text says to a language: a known type, or a custom one with its text. -/
inductive TypeToken where
  | known (type : KnownType)
  | custom (text : String)
  deriving DecidableEq, Repr

namespace TypeToken

def ofText (s : String) : TypeToken :=
  match KnownType.ofText? s with
  | some type => .known type
  | none => .custom s

/-- The word for a known type, the text of a custom one. -/
def text : TypeToken → String
  | .known type => type.word
  | .custom text => text

def isVoid (token : TypeToken) : Bool := token = .known .void

end TypeToken

/-- A type as it was written. -/
structure TypeName where
  raw : String
  deriving DecidableEq, Repr

namespace TypeName

/-- The type of a place that names none. -/
def ofOption (s : Option String) : TypeName := ⟨s.getD ""⟩

/-- What the text says. -/
def token (t : TypeName) : TypeToken := .ofText t.raw

/-- No value at all. -/
def isVoid (t : TypeName) : Bool := t.token.isVoid

end TypeName

end UmlSkeleton

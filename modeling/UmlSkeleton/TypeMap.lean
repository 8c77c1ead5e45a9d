import UmlSkeleton.Model.TypeName
import UmlSkeleton.Target.Basic

/-!
# Types in the target languages

How each target spells a type. The known types have a spelling each. A custom type is written as
it stands in Java, where a blank one becomes `Object`; the other two have a word for any value.
-/

namespace UmlSkeleton

open Text

/-- The spelling of a type in a target. -/
def TypeToken.spelling (target : Target) (token : TypeToken) : String :=
  match target, token with
  | .java, .known .string => "String"
  | .java, .known .int => "int"
  | .java, .known .double => "double"
  | .java, .known .float => "float"
  | .java, .known .boolean => "boolean"
  | .java, .known .void => "void"
  | .java, .custom text => if allBlank text then "Object" else text
  | .php, .known .string => "string"
  | .php, .known .int => "int"
  | .php, .known .double => "float"
  | .php, .known .float => "float"
  | .php, .known .boolean => "bool"
  | .php, .known .void => "void"
  | .php, .custom _ => "mixed"
  | .python, .known .string => "str"
  | .python, .known .int => "int"
  | .python, .known .double => "float"
  | .python, .known .float => "float"
  | .python, .known .boolean => "bool"
  | .python, .known .void => "None"
  | .python, .custom _ => "Any"

/-- The spelling in a target of a type given by its text. -/
def spellType (target : Target) (text : String) : String := (TypeToken.ofText text).spelling target

/-- The spelling of a type as it was written. -/
def TypeName.spelling (target : Target) (type : TypeName) : String := type.token.spelling target

/-- The words for types in PHP. -/
def phpTypes : List String := ["string", "int", "float", "bool", "void", "mixed"]

/-- The words for types in Python. -/
def pythonTypes : List String := ["str", "int", "float", "bool", "None", "Any"]

/-- There are no other types in PHP, whatever a custom type is called. -/
theorem TypeName.spelling_php_mem (t : TypeName) : t.spelling .php ∈ phpTypes := by
  unfold TypeName.spelling
  cases t.token with
  | known type => cases type <;> decide
  | custom text => exact (by decide : "mixed" ∈ phpTypes)

theorem TypeName.spelling_python_mem (t : TypeName) : t.spelling .python ∈ pythonTypes := by
  unfold TypeName.spelling
  cases t.token with
  | known type => cases type <;> decide
  | custom text => exact (by decide : "Any" ∈ pythonTypes)

end UmlSkeleton

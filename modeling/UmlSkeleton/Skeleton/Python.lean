import UmlSkeleton.Skeleton.Block

/-!
# Python skeletons

A class has an initializer that takes all properties, and a stub for each method. Documentation
stands in docstrings; that of a method repeats the types of its parameters as they were written. A
class with a parent calls the parent's initializer and says how it is shown.
-/

namespace UmlSkeleton.Python

/-! ### Types -/

/-- The type of a value that may be left out. Anything includes nothing already. -/
def optionalType (spelling : String) : String :=
  if spelling = "Any" then spelling else "Optional[" ++ spelling ++ "]"

def typeText (t : TypeName) : String := t.spelling .python

/-! ### Members -/

/-- The line that begins and ends a docstring. -/
def quotes : Step := .line "\"\"\""

def initializer (parent : Option String) (c : Class) : List Step :=
  indented
    ("def __init__(self" ++
      String.join (c.properties.map fun p =>
        ", " ++ p.name ++ ": " ++ optionalType (typeText p.type) ++ " = None") ++ "):")
    (stepsIf parent.isSome [.line "super().__init__()"] ++
      c.properties.map (fun p => .line ("self." ++ p.name ++ " = " ++ p.name)) ++
      stepsIf (parent.isNone && c.properties.isEmpty) [.line "pass"])

/-- What a docstring says about parameters. -/
def argumentDoc (parameters : List Parameter) : List Step :=
  [.blank, .line "Args:", .indent] ++
    parameters.map (fun p => .line (p.name ++ ": " ++ p.type.raw ++ " parameter")) ++ [.dedent]

/-- The docstring of a method. -/
def methodDoc (m : Method) : List Step :=
  [quotes, .line (m.name ++ " method")] ++
    stepsIf (!m.parameters.isEmpty) (argumentDoc m.parameters) ++
    [.blank, .line "Returns:", .indent, .line (typeText m.type), .dedent, quotes]

def method (o : Options) (m : Method) : List Step :=
  indented
    ("def " ++ m.name ++ "(self" ++
      String.join (m.parameters.map fun p => ", " ++ p.name ++ ": " ++ typeText p.type) ++ ") -> " ++
      typeText m.type ++ ":")
    (stepsIf o.docs (methodDoc m) ++ [.line "# TODO: Implement method"] ++
      stepsIf (!m.type.isVoid) [.line "return None  # Placeholder return"])

/-- How an object is shown: the name of its class and the values of its properties. -/
def shown (className : String) (properties : List String) : String :=
  className ++ "(" ++
    commaList (properties.map fun name => name ++ "=\x7bself." ++ name ++ "\x7d") ++ ")"

def strMethod (c : Class) : List Step :=
  indented "def __str__(self) -> str:"
    [.line ("return f\"" ++ shown c.name (c.properties.map (·.name)) ++ "\"")]

/-! ### Classes -/

def header (parent : Option String) (c : Class) : String :=
  "class " ++ c.name ++ parent.elim "" (fun p => "(" ++ p ++ ")") ++ ":"

/-- The docstring of a class. -/
def classDoc (parent : Option String) (c : Class) : List Step :=
  [quotes, .line (c.name ++ " class" ++ parent.elim "" (" inheriting from " ++ ·)), quotes]

/-- The members that are set apart by gaps, in order. -/
def members (o : Options) (parent : Option String) (c : Class) : List (List Step) :=
  initializer parent c :: c.methods.map (method o) ++ parent.toList.map fun _ => strMethod c

def classBlock (o : Options) (parent : Option String) (c : Class) : List Step :=
  indented (header parent c) (stepsIf o.docs (classDoc parent c) ++ spaced (members o parent c))

def dialect : Dialect :=
  ⟨.python, [.line "from typing import Any, List, Optional"], [.gap, .blank], classBlock⟩

end UmlSkeleton.Python

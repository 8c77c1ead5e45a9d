import UmlSkeleton.Skeleton.Block

/-!
# Java skeletons

A class has its fields, a constructor without parameters, a getter and a setter for each field,
and a stub for each method. A class with a parent calls the parent's constructor and overrides
`toString`.
-/

namespace UmlSkeleton.Java

open Text

/-! ### Modifiers and types -/

/-- The modifier of a field. Without one, a field is for its package; a visibility that is none of
the four makes it private. -/
def fieldModifier? (v : Visibility) : Option String :=
  match v.access? with
  | some .everyone => some "public"
  | some .owner => some "private"
  | some .heirs => some "protected"
  | some .package => none
  | none => some "private"

/-- The modifier of a method. Without one, a method is for its package. -/
def methodModifier? (v : Visibility) : Option String :=
  match v.access? with
  | some .everyone => some "public"
  | some .owner => some "private"
  | some .heirs => some "protected"
  | some .package => none
  | none => none

/-- A modifier and the space after it. -/
def spacedModifier (modifier : Option String) : String := modifier.elim "" (· ++ " ")

def typeText (t : TypeName) : String := t.spelling .java

/-! ### Members -/

def field (p : Property) : List Step :=
  [.line (spacedModifier (fieldModifier? p.visibility) ++ typeText p.type ++ " " ++ p.name ++ ";")]

def constructor (o : Options) (parent : Option String) (c : Class) : List Step :=
  stepsIf o.docs [.line "// Constructor"] ++
    braced ("public " ++ c.name ++ "()")
      (stepsIf parent.isSome
        [.line (if o.docs then "super(); // Call parent class constructor" else "super();")])

def getter (p : Property) : List Step :=
  braced ("public " ++ typeText p.type ++ " get" ++ capitalize p.name ++ "()")
    [.line ("return this." ++ p.name ++ ";")]

def setter (p : Property) : List Step :=
  braced ("public void set" ++ capitalize p.name ++ "(" ++ typeText p.type ++ " " ++ p.name ++ ")")
    [.line ("this." ++ p.name ++ " = " ++ p.name ++ ";")]

def parameter (p : Parameter) : String := typeText p.type ++ " " ++ p.name

def method (o : Options) (hasParent : Bool) (m : Method) : List Step :=
  braced
    (spacedModifier (methodModifier? m.visibility) ++ typeText m.type ++ " " ++ m.name ++ "(" ++
      commaList (m.parameters.map parameter) ++ ")")
    (stepsIf (hasParent && o.docs)
        [.line "// Method can override parent class method if needed"] ++
      [.line "// TODO: Implement method body"] ++
      stepsIf (!m.type.isVoid) [.line "return null; // Placeholder return"])

def toStringMethod (parent : String) (c : Class) : List Step :=
  .line "@Override" ::
    braced "public String toString()"
      [.line ("return \"" ++ c.name ++ " [Subclass of " ++ parent ++ "]\";")]

/-! ### Classes -/

def header (parent : Option String) (c : Class) : String :=
  "public class " ++ c.name ++ parent.elim "" (" extends " ++ ·)

/-- The members that are set apart by gaps, in order. -/
def members (o : Options) (parent : Option String) (c : Class) : List (List Step) :=
  constructor o parent c ::
    (c.properties.flatMap fun p => [getter p, setter p]) ++
      c.methods.map (method o parent.isSome) ++
      parent.toList.map (toStringMethod · c)

def classBlock (o : Options) (parent : Option String) (c : Class) : List Step :=
  braced (header parent c) (c.properties.flatMap field ++ spaced (members o parent c))

def dialect : Dialect := ⟨.java, [], [.gap], classBlock⟩

end UmlSkeleton.Java

import UmlSkeleton.Skeleton.Block

/-!
# PHP skeletons

A class has its properties, a constructor that takes them all, accessors if they are asked for,
and a stub for each method. Documentation stands in blocks before what it is about. Where a value
is meant, `void` is no type and becomes `mixed`.
-/

namespace UmlSkeleton.Php

open Text

/-! ### Keywords and types -/

/-- The keyword of a property. There is no package level, which becomes private. -/
def propertyKeyword (v : Visibility) : String :=
  match v.access? with
  | some .everyone => "public"
  | some .heirs => "protected"
  | _ => "private"

/-- The keyword of a method. What is neither private nor protected is public. -/
def methodKeyword (v : Visibility) : String :=
  match v.access? with
  | some .owner => "private"
  | some .heirs => "protected"
  | _ => "public"

/-- The type of a value, given the spelling of the type. -/
def valueType (spelling : String) : String := if spelling = "void" then "mixed" else spelling

/-- The type of a value that may be null. Anything includes null already. -/
def nullable (spelling : String) : String :=
  if valueType spelling = "mixed" then "mixed" else "?" ++ valueType spelling

def typeText (t : TypeName) : String := t.spelling .php

def valueTypeText (t : TypeName) : String := valueType (typeText t)

/-! ### Documentation -/

/-- A block of documentation. -/
def docBlock (o : Options) (lines : List String) : List Step :=
  stepsIf o.docs (.line "/**" :: lines.map (fun l => .line (" * " ++ l)) ++ [.line " */"])

/-- The documentation of a parameter. -/
def paramDoc (type : TypeName) (name : String) : String :=
  "@param " ++ valueTypeText type ++ " $" ++ name

/-! ### Members -/

def property (o : Options) (p : Property) : List Step :=
  stepsIf o.docs [.gap, .line ("/** @var " ++ valueTypeText p.type ++ " */")] ++
    [.line (propertyKeyword p.visibility ++ " $" ++ p.name ++ ";")]

/-- The property gets its value from the variable of the same name. -/
def assignment (p : Property) : Step := .line ("$this->" ++ p.name ++ " = $" ++ p.name ++ ";")

def constructor (o : Options) (parent : Option String) (c : Class) : List Step :=
  docBlock o ("Constructor" :: c.properties.map fun p => paramDoc p.type p.name) ++
    braced
      ("public function __construct(" ++
        commaList (c.properties.map fun p =>
          nullable (typeText p.type) ++ " $" ++ p.name ++ " = null") ++ ")")
      (stepsIf parent.isSome [.line "parent::__construct();"] ++ c.properties.map assignment)

def getter (o : Options) (p : Property) : List Step :=
  docBlock o ["Get " ++ p.name, "@return " ++ valueTypeText p.type] ++
    braced ("public function get" ++ capitalize p.name ++ "(): " ++ valueTypeText p.type)
      [.line ("return $this->" ++ p.name ++ ";")]

def setter (o : Options) (p : Property) : List Step :=
  docBlock o ["Set " ++ p.name, paramDoc p.type p.name, "@return self"] ++
    braced
      ("public function set" ++ capitalize p.name ++ "(" ++ valueTypeText p.type ++ " $" ++ p.name ++
        "): self")
      [assignment p, .line "return $this;"]

def method (o : Options) (m : Method) : List Step :=
  docBlock o
      (((m.name ++ " method") :: m.parameters.map fun p => paramDoc p.type p.name) ++
        ["@return " ++ typeText m.type]) ++
    braced
      (methodKeyword m.visibility ++ " function " ++ m.name ++ "(" ++
        commaList (m.parameters.map fun p => valueTypeText p.type ++ " $" ++ p.name) ++ "): " ++
        typeText m.type)
      (.line "// TODO: Implement method" ::
        stepsIf (!m.type.isVoid) [.line "return null; // Placeholder return"])

/-! ### Classes -/

def header (parent : Option String) (c : Class) : String :=
  "class " ++ c.name ++ parent.elim "" (" extends " ++ ·)

/-- The accessors of all properties. -/
def accessors (o : Options) (c : Class) : List (List Step) :=
  if o.phpAccessors then c.properties.flatMap fun p => [getter o p, setter o p] else []

/-- The members that are set apart by gaps, in order. -/
def members (o : Options) (parent : Option String) (c : Class) : List (List Step) :=
  constructor o parent c :: accessors o c ++ c.methods.map (method o)

def classBlock (o : Options) (parent : Option String) (c : Class) : List Step :=
  docBlock o (("Class " ++ c.name) :: parent.toList.map ("@extends " ++ ·)) ++
    braced (header parent c) (c.properties.flatMap (property o) ++ spaced (members o parent c))

def dialect : Dialect := ⟨.php, [.line "<?php"], [.gap], classBlock⟩

end UmlSkeleton.Php

import UmlSkeleton.Proofs.Skeleton.Sections

/-!
# What a skeleton declares

When a class is laid out, its types and names are parts of texts. Here it is kept apart what the block of a
class declares: fields, and functions with their parameters and results, each with the type that is written
for it. Documentation in front of a function names types too, in its annotations. A target spells all this
(`Source.Class.steps`), and that is the only place where it becomes text.

* `Source.Field`, `Source.Function`, `Source.Class` — declarations, with the types that are written.
* `Model.source` — what the skeleton of a model declares, class by class.
* `Model.skeleton_eq_sourceText` — spelled by the target, it is the skeleton.
-/

namespace UmlSkeleton

/-- What a function of a class is there for. -/
inductive Role where
  | constructor
  | getter
  | setter
  /-- It stands for this method of the model. -/
  | stub (method : Method)
  /-- It says how an object is shown. -/
  | display
  deriving DecidableEq

/-- The method that a function stands for. -/
def Role.method? : Role → Option Method
  | .stub method => some method
  | _ => none

def Role.isAccessor : Role → Bool
  | .getter => true
  | .setter => true
  | _ => false

namespace Source

structure Parameter where
  type : String
  name : String
  /-- What follows the name, if the parameter may be left out. -/
  default : String

/-- A line in front of a declaration. Only annotations name types. -/
inductive Remark where
  | words (text : String)
  | param (type name : String)
  | returns (type : String)

structure Field where
  /-- The type in the annotation above it. -/
  annotation : Option String
  modifiers : String
  /-- The type in the declaration itself. -/
  type : Option String
  name : String

structure Function where
  role : Role
  preface : List Remark
  modifiers : String
  name : String
  parameters : List Parameter
  result : Option String
  body : List Step

structure Class where
  preface : List Remark
  header : String
  /-- Documentation below the header. -/
  docstring : List Step
  fields : List Field
  functions : List Function

/-! ## Spelling -/

/-- What stands in front of a variable. -/
def sigil : Target → String
  | .php => "$"
  | _ => ""

/-- A block of the target. -/
def block : Target → String → List Step → List Step
  | .python => indented
  | _ => braced

def Remark.text : Remark → String
  | .words text => text
  | .param type name => " * " ++ ("@param " ++ type ++ " $" ++ name)
  | .returns type => " * " ++ ("@return " ++ type)

def Remark.steps (remarks : List Remark) : List Step := remarks.map fun r => .line r.text

/-- An annotation with its gap, then the declaration. -/
def Field.steps (target : Target) (f : Field) : List Step :=
  f.annotation.elim [] (fun type => [.gap, .line ("/** @var " ++ type ++ " */")]) ++
    [.line (f.modifiers ++ f.type.elim "" (· ++ " ") ++ sigil target ++ f.name ++ ";")]

/-- A parameter with its type in front. -/
def Parameter.text (target : Target) (p : Parameter) : String :=
  p.type ++ " " ++ sigil target ++ p.name ++ p.default

/-- The header of a function: in Java the result comes first, in the other targets last. -/
def Function.header (f : Function) : Target → String
  | .java =>
    f.modifiers ++ f.result.elim "" (· ++ " ") ++ f.name ++ "(" ++
      commaList (f.parameters.map (Parameter.text .java)) ++ ")"
  | .php =>
    f.modifiers ++ "function " ++ f.name ++ "(" ++ commaList (f.parameters.map (Parameter.text .php)) ++ ")" ++
      f.result.elim "" (": " ++ ·)
  | .python =>
    "def " ++ f.name ++ "(self" ++
      String.join (f.parameters.map fun p => ", " ++ p.name ++ ": " ++ p.type ++ p.default) ++ ")" ++
      f.result.elim "" (" -> " ++ ·) ++ ":"

def Function.steps (target : Target) (f : Function) : List Step :=
  Remark.steps f.preface ++ block target (f.header target) f.body

/-- The block of a class: fields, and functions with gaps before them. -/
def Class.steps (target : Target) (k : Class) : List Step :=
  Remark.steps k.preface ++
    block target k.header
      (k.docstring ++ k.fields.flatMap (Field.steps target) ++ spaced (k.functions.map (Function.steps target)))

/-- What holds of each getter and of each setter holds of all accessors. -/
theorem forall_mem_accessors_iff {properties : List Property} {getter setter : Property → Function}
    {p : Function → Prop} :
    (∀ f ∈ properties.flatMap fun q => [getter q, setter q], p f) ↔
      ∀ q ∈ properties, p (getter q) ∧ p (setter q) := by
  rw [List.forall_mem_flatMap]
  refine forall₂_congr fun q _ => ?_
  rw [List.forall_mem_cons, List.forall_mem_singleton]

end Source

open Source (Remark)

/-! ## Java -/

namespace Java

open Text

def fieldSource (p : Property) : Source.Field :=
  ⟨none, spacedModifier (fieldModifier? p.visibility), some (typeText p.type), p.name⟩

def constructorSource (o : Options) (parent : Option String) (c : Class) : Source.Function where
  role := .constructor
  preface := if o.docs then [.words "// Constructor"] else []
  modifiers := "public "
  name := c.name
  parameters := []
  result := none
  body := stepsIf parent.isSome
    [.line (if o.docs then "super(); // Call parent class constructor" else "super();")]

def getterSource (p : Property) : Source.Function where
  role := .getter
  preface := []
  modifiers := "public "
  name := "get" ++ capitalize p.name
  parameters := []
  result := some (typeText p.type)
  body := [.line ("return this." ++ p.name ++ ";")]

def setterSource (p : Property) : Source.Function where
  role := .setter
  preface := []
  modifiers := "public "
  name := "set" ++ capitalize p.name
  parameters := [⟨typeText p.type, p.name, ""⟩]
  result := some "void"
  body := [.line ("this." ++ p.name ++ " = " ++ p.name ++ ";")]

def methodSource (o : Options) (hasParent : Bool) (f : Method) : Source.Function where
  role := .stub f
  preface := []
  modifiers := spacedModifier (methodModifier? f.visibility)
  name := f.name
  parameters := f.parameters.map fun p => ⟨typeText p.type, p.name, ""⟩
  result := some (typeText f.type)
  body := stepsIf (hasParent && o.docs) [.line "// Method can override parent class method if needed"] ++
    [.line "// TODO: Implement method body"] ++
    stepsIf (!f.type.isVoid) [.line "return null; // Placeholder return"]

def toStringSource (parent : String) (c : Class) : Source.Function where
  role := .display
  preface := [.words "@Override"]
  modifiers := "public "
  name := "toString"
  parameters := []
  result := some "String"
  body := [.line ("return \"" ++ c.name ++ " [Subclass of " ++ parent ++ "]\";")]

def classSource (o : Options) (parent : Option String) (c : Class) : Source.Class where
  preface := []
  header := header parent c
  docstring := []
  fields := c.properties.map fieldSource
  functions := constructorSource o parent c ::
    (c.properties.flatMap fun p => [getterSource p, setterSource p]) ++
      c.methods.map (methodSource o parent.isSome) ++ parent.toList.map (toStringSource · c)

theorem steps_fieldSource (p : Property) : (fieldSource p).steps .java = field p := by
  simp [Source.Field.steps, fieldSource, field, Source.sigil, String.append_assoc]

theorem steps_constructorSource (o : Options) (parent : Option String) (c : Class) :
    (constructorSource o parent c).steps .java = constructor o parent c := by
  have hheader : (constructorSource o parent c).header .java = "public " ++ c.name ++ "()" := by
    apply String.toList_injective
    simp [Source.Function.header, constructorSource, commaList]
  have hpreface : Remark.steps (constructorSource o parent c).preface =
      stepsIf o.docs [.line "// Constructor"] := by
    unfold constructorSource
    cases o.docs with
    | true => rfl
    | false => rfl
  rw [Source.Function.steps, hheader, hpreface, constructor]
  rfl

theorem steps_getterSource (p : Property) : (getterSource p).steps .java = getter p := by
  have hheader : (getterSource p).header .java =
      "public " ++ typeText p.type ++ " get" ++ capitalize p.name ++ "()" := by
    apply String.toList_injective
    simp [Source.Function.header, getterSource, commaList]
  rw [Source.Function.steps, hheader, getter]
  rfl

theorem steps_setterSource (p : Property) : (setterSource p).steps .java = setter p := by
  have hheader : (setterSource p).header .java =
      "public void set" ++ capitalize p.name ++ "(" ++ typeText p.type ++ " " ++ p.name ++ ")" := by
    apply String.toList_injective
    simp [Source.Function.header, setterSource, commaList, Source.Parameter.text, Source.sigil]
  rw [Source.Function.steps, hheader, setter]
  rfl

theorem steps_methodSource (o : Options) (hasParent : Bool) (f : Method) :
    (methodSource o hasParent f).steps .java = method o hasParent f := by
  have hparameters : (methodSource o hasParent f).parameters.map (Source.Parameter.text .java) =
      f.parameters.map parameter := by
    simp [methodSource, Source.Parameter.text, Source.sigil, parameter]
  rw [Source.Function.steps, Source.Function.header, hparameters, method]
  simp [methodSource, Source.Remark.steps, Source.block, String.append_assoc]

theorem steps_toStringSource (parent : String) (c : Class) :
    (toStringSource parent c).steps .java = toStringMethod parent c := by
  have hheader : (toStringSource parent c).header .java = "public String toString()" := rfl
  rw [Source.Function.steps, hheader, toStringMethod]
  rfl

theorem steps_classSource (o : Options) (parent : Option String) (c : Class) :
    (classSource o parent c).steps .java = classBlock o parent c := by
  have hfields : (c.properties.map fieldSource).flatMap (Source.Field.steps .java) =
      c.properties.flatMap field := by
    rw [List.flatMap_map]
    simp only [steps_fieldSource]
  have hmembers : (classSource o parent c).functions.map (Source.Function.steps .java) =
      members o parent c := by
    simp [classSource, members, List.map_flatMap, steps_constructorSource, steps_getterSource,
      steps_setterSource, steps_methodSource, steps_toStringSource, Function.comp_def]
  rw [Source.Class.steps, hmembers, classBlock, ← hfields]
  rfl

end Java

/-! ## PHP -/

namespace Php

open Text

/-- Remarks as a block of documentation. -/
def docRemarks (o : Options) (remarks : List Remark) : List Remark :=
  if o.docs then .words "/**" :: remarks ++ [.words " */"] else []

def docLine (text : String) : Remark := .words (" * " ++ text)

def propertySource (o : Options) (p : Property) : Source.Field :=
  ⟨if o.docs then some (valueTypeText p.type) else none, propertyKeyword p.visibility ++ " ", none, p.name⟩

def constructorSource (o : Options) (parent : Option String) (c : Class) : Source.Function where
  role := .constructor
  preface := docRemarks o (docLine "Constructor" :: c.properties.map fun p => .param (valueTypeText p.type) p.name)
  modifiers := "public "
  name := "__construct"
  parameters := c.properties.map fun p => ⟨nullable (typeText p.type), p.name, " = null"⟩
  result := none
  body := stepsIf parent.isSome [.line "parent::__construct();"] ++ c.properties.map assignment

def getterSource (o : Options) (p : Property) : Source.Function where
  role := .getter
  preface := docRemarks o [docLine ("Get " ++ p.name), .returns (valueTypeText p.type)]
  modifiers := "public "
  name := "get" ++ capitalize p.name
  parameters := []
  result := some (valueTypeText p.type)
  body := [.line ("return $this->" ++ p.name ++ ";")]

def setterSource (o : Options) (p : Property) : Source.Function where
  role := .setter
  preface := docRemarks o [docLine ("Set " ++ p.name), .param (valueTypeText p.type) p.name, .returns "self"]
  modifiers := "public "
  name := "set" ++ capitalize p.name
  parameters := [⟨valueTypeText p.type, p.name, ""⟩]
  result := some "self"
  body := [assignment p, .line "return $this;"]

def methodSource (o : Options) (f : Method) : Source.Function where
  role := .stub f
  preface := docRemarks o ((docLine (f.name ++ " method") ::
    f.parameters.map fun p => .param (valueTypeText p.type) p.name) ++ [.returns (typeText f.type)])
  modifiers := methodKeyword f.visibility ++ " "
  name := f.name
  parameters := f.parameters.map fun p => ⟨valueTypeText p.type, p.name, ""⟩
  result := some (typeText f.type)
  body := .line "// TODO: Implement method" ::
    stepsIf (!f.type.isVoid) [.line "return null; // Placeholder return"]

def classSource (o : Options) (parent : Option String) (c : Class) : Source.Class where
  preface := docRemarks o (docLine ("Class " ++ c.name) :: parent.toList.map fun p => docLine ("@extends " ++ p))
  header := header parent c
  docstring := []
  fields := c.properties.map (propertySource o)
  functions := constructorSource o parent c ::
    (if o.phpAccessors then c.properties.flatMap fun p => [getterSource o p, setterSource o p] else []) ++
      c.methods.map (methodSource o)

theorem steps_docRemarks (o : Options) {remarks : List Remark} {texts : List String}
    (h : remarks.map Remark.text = texts.map (" * " ++ ·)) :
    Remark.steps (docRemarks o remarks) = docBlock o texts := by
  have hlines : remarks.map (fun r => Step.line r.text) = texts.map fun t => .line (" * " ++ t) := by
    have hmap := congrArg (List.map Step.line) h
    rwa [List.map_map, List.map_map] at hmap
  unfold docRemarks docBlock
  cases o.docs with
  | true =>
      simp only [Remark.steps, if_true, stepsIf, List.cons_append, List.map_cons, List.map_append, hlines]
      rfl
  | false => rfl

theorem steps_propertySource (o : Options) (p : Property) :
    (propertySource o p).steps .php = property o p := by
  have hline : propertyKeyword p.visibility ++ " " ++ "" ++ "$" ++ p.name ++ ";" =
      propertyKeyword p.visibility ++ " $" ++ p.name ++ ";" := by
    apply String.toList_injective
    simp
  unfold propertySource property Source.Field.steps
  rw [← hline]
  cases o.docs with
  | true => rfl
  | false => rfl

theorem steps_constructorSource (o : Options) (parent : Option String) (c : Class) :
    (constructorSource o parent c).steps .php = constructor o parent c := by
  have hdoc : Remark.steps (constructorSource o parent c).preface =
      docBlock o ("Constructor" :: c.properties.map fun p => paramDoc p.type p.name) := by
    apply steps_docRemarks
    simp [docLine, paramDoc, Remark.text]
  have hparameters : (constructorSource o parent c).parameters.map (Source.Parameter.text .php) =
      c.properties.map fun p => nullable (typeText p.type) ++ " $" ++ p.name ++ " = null" := by
    rw [constructorSource, List.map_map]
    apply List.map_congr_left
    intro p _
    apply String.toList_injective
    simp [Source.Parameter.text, Source.sigil]
  have hheader : (constructorSource o parent c).header .php = "public function __construct(" ++
      commaList (c.properties.map fun p => nullable (typeText p.type) ++ " $" ++ p.name ++ " = null") ++ ")" := by
    rw [Source.Function.header, hparameters]
    apply String.toList_injective
    simp [constructorSource]
  rw [Source.Function.steps, hdoc, hheader, constructor]
  rfl

theorem steps_getterSource (o : Options) (p : Property) : (getterSource o p).steps .php = getter o p := by
  have hdoc : Remark.steps (getterSource o p).preface =
      docBlock o ["Get " ++ p.name, "@return " ++ valueTypeText p.type] := steps_docRemarks o rfl
  have hheader : (getterSource o p).header .php =
      "public function get" ++ capitalize p.name ++ "(): " ++ valueTypeText p.type := by
    apply String.toList_injective
    simp [Source.Function.header, getterSource, commaList]
  rw [Source.Function.steps, hdoc, hheader, getter]
  rfl

theorem steps_setterSource (o : Options) (p : Property) : (setterSource o p).steps .php = setter o p := by
  have hdoc : Remark.steps (setterSource o p).preface =
      docBlock o ["Set " ++ p.name, paramDoc p.type p.name, "@return self"] := steps_docRemarks o rfl
  have hheader : (setterSource o p).header .php =
      "public function set" ++ capitalize p.name ++ "(" ++ valueTypeText p.type ++ " $" ++ p.name ++
        "): self" := by
    apply String.toList_injective
    simp [Source.Function.header, setterSource, commaList, Source.Parameter.text, Source.sigil]
  rw [Source.Function.steps, hdoc, hheader, setter]
  rfl

theorem steps_methodSource (o : Options) (f : Method) : (methodSource o f).steps .php = method o f := by
  have hdoc : Remark.steps (methodSource o f).preface = docBlock o
      (((f.name ++ " method") :: f.parameters.map fun p => paramDoc p.type p.name) ++
        ["@return " ++ typeText f.type]) := by
    apply steps_docRemarks
    simp [docLine, paramDoc, Remark.text]
  have hparameters : (methodSource o f).parameters.map (Source.Parameter.text .php) =
      f.parameters.map fun p => valueTypeText p.type ++ " $" ++ p.name := by
    rw [methodSource, List.map_map]
    apply List.map_congr_left
    intro p _
    apply String.toList_injective
    simp [Source.Parameter.text, Source.sigil]
  have hheader : (methodSource o f).header .php = methodKeyword f.visibility ++ " function " ++ f.name ++ "(" ++
      commaList (f.parameters.map fun p => valueTypeText p.type ++ " $" ++ p.name) ++ "): " ++
        typeText f.type := by
    rw [Source.Function.header, hparameters]
    apply String.toList_injective
    simp [methodSource]
  rw [Source.Function.steps, hdoc, hheader, method]
  rfl

theorem steps_classSource (o : Options) (parent : Option String) (c : Class) :
    (classSource o parent c).steps .php = classBlock o parent c := by
  have hdoc : Remark.steps (classSource o parent c).preface =
      docBlock o (("Class " ++ c.name) :: parent.toList.map ("@extends " ++ ·)) := by
    apply steps_docRemarks
    simp [docLine, Remark.text]
  have hfields : (c.properties.map (propertySource o)).flatMap (Source.Field.steps .php) =
      c.properties.flatMap (property o) := by
    rw [List.flatMap_map]
    simp only [steps_propertySource]
  have hmembers : (classSource o parent c).functions.map (Source.Function.steps .php) =
      members o parent c := by
    unfold classSource members accessors
    cases o.phpAccessors with
    | true =>
        simp [List.map_flatMap, steps_constructorSource, steps_getterSource, steps_setterSource,
          steps_methodSource]
    | false => simp [steps_constructorSource, steps_methodSource]
  rw [Source.Class.steps, hdoc, hmembers, classBlock, ← hfields]
  rfl

end Php

/-! ## Python -/

namespace Python

def initializerSource (parent : Option String) (c : Class) : Source.Function where
  role := .constructor
  preface := []
  modifiers := ""
  name := "__init__"
  parameters := c.properties.map fun p => ⟨optionalType (typeText p.type), p.name, " = None"⟩
  result := none
  body := stepsIf parent.isSome [.line "super().__init__()"] ++
    c.properties.map (fun p => .line ("self." ++ p.name ++ " = " ++ p.name)) ++
    stepsIf (parent.isNone && c.properties.isEmpty) [.line "pass"]

def methodSource (o : Options) (f : Method) : Source.Function where
  role := .stub f
  preface := []
  modifiers := ""
  name := f.name
  parameters := f.parameters.map fun p => ⟨typeText p.type, p.name, ""⟩
  result := some (typeText f.type)
  body := stepsIf o.docs (methodDoc f) ++ [.line "# TODO: Implement method"] ++
    stepsIf (!f.type.isVoid) [.line "return None  # Placeholder return"]

def strSource (c : Class) : Source.Function where
  role := .display
  preface := []
  modifiers := ""
  name := "__str__"
  parameters := []
  result := some "str"
  body := [.line ("return f\"" ++ shown c.name (c.properties.map (·.name)) ++ "\"")]

def classSource (o : Options) (parent : Option String) (c : Class) : Source.Class where
  preface := []
  header := header parent c
  docstring := stepsIf o.docs (classDoc parent c)
  fields := []
  functions := initializerSource parent c :: c.methods.map (methodSource o) ++
    parent.toList.map fun _ => strSource c

theorem steps_initializerSource (parent : Option String) (c : Class) :
    (initializerSource parent c).steps .python = initializer parent c := by
  have hheader : (initializerSource parent c).header .python = "def __init__(self" ++
      String.join (c.properties.map fun p =>
        ", " ++ p.name ++ ": " ++ optionalType (typeText p.type) ++ " = None") ++ "):" := by
    apply String.toList_injective
    simp [Source.Function.header, initializerSource, Function.comp_def]
  rw [Source.Function.steps, hheader, initializer]
  rfl

theorem steps_methodSource (o : Options) (f : Method) : (methodSource o f).steps .python = method o f := by
  have hheader : (methodSource o f).header .python = "def " ++ f.name ++ "(self" ++
      String.join (f.parameters.map fun p => ", " ++ p.name ++ ": " ++ typeText p.type) ++ ") -> " ++
      typeText f.type ++ ":" := by
    apply String.toList_injective
    simp [Source.Function.header, methodSource, Function.comp_def]
  rw [Source.Function.steps, hheader, method]
  rfl

theorem steps_strSource (c : Class) : (strSource c).steps .python = strMethod c := rfl

theorem steps_classSource (o : Options) (parent : Option String) (c : Class) :
    (classSource o parent c).steps .python = classBlock o parent c := by
  have hmembers : (classSource o parent c).functions.map (Source.Function.steps .python) =
      members o parent c := by
    simp [classSource, members, steps_initializerSource, steps_methodSource, steps_strSource,
      Function.comp_def]
  rw [Source.Class.steps, hmembers, classBlock]
  simp [classSource, Source.Remark.steps, Source.block]

end Python

/-! ## Skeletons -/

/-- What the block of a class declares. -/
def Target.classSource : Target → Options → Option String → Class → Source.Class
  | .java => Java.classSource
  | .php => Php.classSource
  | .python => Python.classSource

theorem Target.steps_classSource (target : Target) (o : Options) (parent : Option String) (c : Class) :
    (target.classSource o parent c).steps target = target.dialect.block o parent c := by
  cases target with
  | java => exact Java.steps_classSource o parent c
  | php => exact Php.steps_classSource o parent c
  | python => exact Python.steps_classSource o parent c

namespace Model

/-- What the skeleton of a model declares, class by class. -/
def source (m : Model) (o : Options) (target : Target) : List Source.Class :=
  m.classes.map fun c => target.classSource o (m.inheritance.parent? c.name) c

/-- The text of these declarations in the target, with the trailer if it is wanted. -/
def sourceText (m : Model) (o : Options) (target : Target) : String :=
  layOut o.indent <| target.dialect.prologue ++
    ((m.source o target).flatMap fun k => target.dialect.separator ++ k.steps target) ++
    stepsIf o.trailer (target.dialect.separator ++ m.trailer target)

theorem skeleton_eq_sourceText (m : Model) (o : Options) (target : Target) :
    m.skeleton o target = m.sourceText o target := by
  rw [sourceText, source, List.flatMap_map]
  simp only [Target.steps_classSource]
  rfl

end Model

end UmlSkeleton

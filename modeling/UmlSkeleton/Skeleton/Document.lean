import UmlSkeleton.Model.Defect
import UmlSkeleton.Model.Document
import UmlSkeleton.Skeleton.Java
import UmlSkeleton.Skeleton.Php
import UmlSkeleton.Skeleton.Python

/-!
# Skeletons of models

The skeleton of a model is one text: the beginning of the file, the block of each class in order,
and the trailer if it is wanted. `Model.skeleton` lays out any model; `Model.generate` refuses one
with a defect, and `generateFrom` begins with the text of a document.
-/

namespace UmlSkeleton

open Json

/-- How a target writes its files. -/
def Target.dialect : Target → Dialect
  | .java => Java.dialect
  | .php => Php.dialect
  | .python => Python.dialect

/-- The layout of a skeleton. -/
def Model.layout (m : Model) (o : Options) (target : Target) : List Step :=
  let d := target.dialect
  let h := m.inheritance
  d.prologue ++
    (m.classes.flatMap fun c => d.separator ++ d.block o (h.parent? c.name) c) ++
    stepsIf o.trailer (d.separator ++ m.trailer target)

/-- The text of a skeleton. -/
def Model.skeleton (m : Model) (o : Options) (target : Target) : String :=
  layOut o.indent (m.layout o target)

/-! ### From the beginning -/

/-- Why there is no skeleton. -/
inductive Failure where
  | defect (defect : Defect)
  | unknownTarget (name : String)
  | badDocument (error : DecodeError)
  | io (text : String)
  deriving DecidableEq

def Failure.message : Failure → String
  | .defect d => d.message
  | .unknownTarget name => "Unknown target language: " ++ name
  | .badDocument e => "Model format error: " ++ e.message
  | .io text => "IO error: " ++ text

/-- The target that a text names. -/
def Target.ofText (s : String) : Except Failure Target :=
  match ofText? s with
  | some target => .ok target
  | none => .error (.unknownTarget s)

/-- The model that a text describes. -/
def Model.ofText (text : String) : Except Failure Model := (Model.decode text).mapError .badDocument

/-- The model has no defect. -/
def Model.check (m : Model) : Except Failure Unit :=
  match m.defect? with
  | none => .ok ()
  | some d => .error (.defect d)

/-- The skeleton of a model without defects. -/
def Model.generate (m : Model) (o : Options) (target : Target) : Except Failure String := do
  m.check
  return m.skeleton o target

/-- The skeleton of the model that a text describes. -/
def generateFrom (text : String) (o : Options) (target : Target) : Except Failure String := do
  (← Model.ofText text).generate o target

end UmlSkeleton

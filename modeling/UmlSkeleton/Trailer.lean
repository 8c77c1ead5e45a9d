import UmlSkeleton.Inheritance
import UmlSkeleton.Layout
import UmlSkeleton.Target.Basic

/-!
# The trailer

At the end of a skeleton a comment lists the relationships that resolve, one a line, in order.
-/

namespace UmlSkeleton

/-- A relationship in words, given the classes at its ends. -/
def Relationship.describe (r : Relationship) (source target : Class) : String :=
  let sentence := source.name ++ " " ++ r.kind.text ++ " " ++ target.name
  match r.effectiveMultiplicity with
  | none => sentence
  | some m => sentence ++ " (Multiplicity: " ++ m ++ ")"

/-- A relationship of a model in words, if it resolves. -/
def Model.describe? (m : Model) (r : Relationship) : Option String :=
  (m.ends? r).map fun (source, target) => r.describe source target

/-- The lines of the trailer. -/
def Model.trailerLines (m : Model) (target : Target) : List String :=
  (target.comment ++ " Relationships:") ::
    (m.resolved.map fun (r, source, other) => target.comment ++ " " ++ r.describe source other)

/-- The trailer as a layout. -/
def Model.trailer (m : Model) (target : Target) : List Step :=
  (m.trailerLines target).map Step.line

end UmlSkeleton

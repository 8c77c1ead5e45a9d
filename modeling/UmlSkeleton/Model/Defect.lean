import UmlSkeleton.Model.Basic

/-!
# Defects of a model

A model is sound when no two classes have the same key, no class has a blank name, and no two
classes have the same name. `Model.defect?` goes through the classes in order, remembers the keys and
names it has seen, and reports the first class that breaks a rule; if it breaks several, the key comes
first, then the blank name. Relationships play no part.
-/

namespace UmlSkeleton

open Text

/-- Why a model is not sound. -/
inductive Defect where
  | duplicateKey (key : Key)
  | blankName (key : Key)
  | duplicateName (name : String) (first second : Key)
  deriving DecidableEq, Repr

def Defect.message : Defect → String
  | .duplicateKey key => "Duplicate class key: " ++ toString key
  | .blankName key => "Empty class name for key " ++ toString key
  | .duplicateName name first second =>
    "Duplicate class name: " ++ name ++ " (keys " ++ toString first ++ " and " ++
      toString second ++ ")"

/-- What has been seen of the classes so far: their keys, and under each name the key of its class. -/
structure Seen where
  keys : List Key
  names : List (String × Key)

namespace Seen

def nothing : Seen := ⟨[], []⟩

/-- See one more class. The error is the first rule that it breaks. -/
def add (seen : Seen) (c : Class) : Except Defect Seen :=
  if seen.keys.any (· = c.key) then .error (.duplicateKey c.key)
  else if allBlank c.name then .error (.blankName c.key)
  else
    match seen.names.find? (·.1 = c.name) with
    | some (_, first) => .error (.duplicateName c.name first c.key)
    | none => .ok ⟨c.key :: seen.keys, (c.name, c.key) :: seen.names⟩

end Seen

/-- The first defect of a model. -/
def Model.defect? (m : Model) : Option Defect :=
  match m.classes.foldlM Seen.add .nothing with
  | .error d => some d
  | .ok _ => none

end UmlSkeleton

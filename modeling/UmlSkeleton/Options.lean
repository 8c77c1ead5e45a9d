/-!
# Options

What may be chosen about the text of a skeleton.
-/

namespace UmlSkeleton

structure Options where
  /-- Spaces for each level of indentation. -/
  indent : Nat
  /-- Write documentation and explaining comments. -/
  docs : Bool
  /-- Write accessors for the properties of PHP classes. -/
  phpAccessors : Bool
  /-- List the relationships in a comment at the end. -/
  trailer : Bool
  deriving DecidableEq, Repr

/-- Four spaces, documentation and the list of relationships, but no accessors in PHP. -/
def Options.default : Options := ⟨4, true, false, true⟩

end UmlSkeleton

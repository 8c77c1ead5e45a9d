import UmlSkeleton.Skeleton.Document
import UmlSkeleton.Writer

/-!
# Emission

`Model.skeleton` is the text of a skeleton, and `Model.emit` writes it on a machine. Only the word
bounds the width of an indentation, so there are skeletons for which no machine has room: then there
is no text, but the reason for the halt.
-/

namespace UmlSkeleton

/-- Write the skeleton of a model on a machine. -/
def Model.emit (machine : Machine) (m : Model) (o : Options) (target : Target) :
    Except Halt String := do
  return (← (Writer.new o.indent).run machine (m.layout o target)).text

end UmlSkeleton

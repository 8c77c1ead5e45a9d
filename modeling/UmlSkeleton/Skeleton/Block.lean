import UmlSkeleton.Inheritance
import UmlSkeleton.Layout
import UmlSkeleton.Options
import UmlSkeleton.Trailer
import UmlSkeleton.TypeMap

/-!
# Blocks, and what makes a skeleton of them

The layouts of classes and their members are put together from blocks: a header, a body one level
deeper, and perhaps a line that closes it. A `Dialect` is what a target adds to this: how a file
begins, what stands between its parts, and how the block of a class looks.
-/

namespace UmlSkeleton

/-- A block in braces. -/
def braced (header : String) (body : List Step) : List Step :=
  .enter (header ++ " \x7b") :: body ++ [.leave "\x7d"]

/-- A block that ends where its indentation does. -/
def indented (header : String) (body : List Step) : List Step :=
  .enter header :: body ++ [.dedent]

/-- Blocks with a gap before each. -/
def spaced (blocks : List (List Step)) : List Step := blocks.flatMap (.gap :: ·)

/-- Some steps, if a condition holds. -/
def stepsIf (condition : Bool) (steps : List Step) : List Step := if condition then steps else []

/-- Texts with a comma and a space between them. -/
def commaList (texts : List String) : String := ", ".intercalate texts

/-- How a target writes its files. -/
structure Dialect where
  target : Target
  /-- How a file begins. -/
  prologue : List Step
  /-- What comes before each class and before the trailer. -/
  separator : List Step
  /-- The block of a class, given the name of its parent if it has one. -/
  block : Options → Option String → Class → List Step

end UmlSkeleton

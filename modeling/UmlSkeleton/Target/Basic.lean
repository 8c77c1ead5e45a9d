import UmlSkeleton.Text.Case

/-!
# Target languages

Skeletons are written in three languages. A target is chosen by its name, in any case and with any
blanks around it, or by the extension of the file to be written.
-/

namespace UmlSkeleton

open Text

/-- A language that skeletons are written in. -/
inductive Target where
  | java
  | php
  | python
  deriving DecidableEq, Repr

namespace Target

/-- All targets, in the order in which they are listed. -/
def all : List Target := [.java, .php, .python]

/-- The target that is used when nothing says otherwise. -/
def default : Target := .java

def name : Target → String
  | .java => "java"
  | .php => "php"
  | .python => "python"

/-- The extension of its files, without the dot. -/
def extension : Target → String
  | .java => "java"
  | .php => "php"
  | .python => "py"

/-- What begins a comment that runs to the end of the line. -/
def comment : Target → String
  | .java => "//"
  | .php => "//"
  | .python => "#"

def description : Target → String
  | .java => "Java classes with accessors and toString overrides"
  | .php => "PHP classes with docblocks and typed constructors"
  | .python => "Python classes with type hints and docstrings"

/-- The target with exactly this name. -/
def named? (s : String) : Option Target := all.find? (·.name = s)

/-- The target whose name or extension a text is, blanks and case aside. -/
def ofText? (s : String) : Option Target :=
  all.find? fun t => fold s = t.name || fold s = t.extension

/-- The target whose files have this extension, the case of the letters `A` to `Z` aside. -/
def ofExtension? (s : String) : Option Target := all.find? (·.extension = lowerAscii s)

end Target

end UmlSkeleton

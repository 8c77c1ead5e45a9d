import UmlSkeleton.Text.Case

/-!
# Log formats

The formats of log lines that can be asked for, by a word in any case. Blanks around the word are
not allowed.
-/

namespace UmlSkeleton.CommandLine

open Text

inductive LogFormat where
  | compact
  | pretty
  | json
  deriving DecidableEq, Repr

namespace LogFormat

/-- All formats. -/
def all : List LogFormat := [.compact, .pretty, .json]

def word : LogFormat → String
  | .compact => "compact"
  | .pretty => "pretty"
  | .json => "json"

/-- The format that a text names. -/
def ofText? (s : String) : Option LogFormat := all.find? (·.word = lower s)

/-- What is said about a text that names none. -/
def unknownMessage (s : String) : String := "Unknown log format: " ++ s

end LogFormat

end UmlSkeleton.CommandLine

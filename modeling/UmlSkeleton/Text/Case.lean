import UmlSkeleton.Text.Blank
import UmlSkeleton.Text.CaseTable

/-!
# Upper and lower case

`capitalize` gives a text an upper case first character and leaves the rest as it is; the first
character may become several (`ß` becomes `SS`). `fold` is the form in which a text is compared
with a keyword: trimmed, then in lower case. Both look characters up in the tables of
`UmlSkeleton.Text.CaseTable`.
-/

namespace UmlSkeleton.Text

/-! ### One character -/

/-- What a case mapping makes of one character: the listed characters, one character at a
distance, or the character itself. -/
def mapCase (runs : List CaseRun) (expansions : List (Nat × List Nat)) (c : Char) : List Char :=
  match expansions.lookup c.toNat with
  | some codes => codes.map Char.ofNat
  | none =>
    match runs.find? (·.covers c.toNat) with
    | some run => [run.apply c.toNat]
    | none => [c]

/-- The upper case of a character. -/
def upperChar (c : Char) : List Char := mapCase upperRuns upperExpansions c

/-- The lower case of a character. -/
def lowerChar (c : Char) : List Char := mapCase lowerRuns lowerExpansions c

/-! ### Whole texts -/

/-- The text with its first character in upper case. -/
def capitalize (s : String) : String :=
  match s.toList with
  | [] => ""
  | c :: rest => String.ofList (upperChar c ++ rest)

/-- The text in lower case, each character for itself. A capital sigma at the end of a word gets
the same small letter as elsewhere. -/
def lower (s : String) : String := String.ofList (s.toList.flatMap lowerChar)

/-- The form in which a text is compared with a keyword. -/
def fold (s : String) : String := lower (trim s)

/-- The text with the letters `A` to `Z` in lower case and all else as it is. -/
def lowerAscii (s : String) : String := s.map Char.toLower

/-! ### Examples at the edges of the tables -/

example : upperChar 'z' = ['Z'] := by decide
example : upperChar 'ß' = ['S', 'S'] := by decide
example : upperChar 'ǆ' = ['Ǆ'] := by decide
example : lowerChar (Char.ofNat 0x212A) = ['k'] := by decide
example : lowerChar 'k' = ['k'] := by decide

end UmlSkeleton.Text

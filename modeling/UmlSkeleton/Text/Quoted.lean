import UmlSkeleton.Text.QuotedTable

/-!
# Quoted text in messages

A message that has to show a piece of text puts it between double quotes. The quote and the
backslash get a backslash, the common controls their letter, and every other character that a
reader could not see is shown by its number, as in `\u{7}`. The apostrophe stays as it is.
-/

namespace UmlSkeleton.Text

/-- A character that a quoted text shows by number. -/
def isUnprinted (c : Char) : Bool :=
  0x7F ≤ c.toNat && unprintedRanges.any (fun (first, last) => first ≤ c.toNat && c.toNat ≤ last)
    || c.toNat < 0x20

/-- The characters of a number in base sixteen, in small letters. -/
def hexDigits (n : Nat) : List Char := Nat.toDigits 16 n

/-- One character inside the quotes. -/
def quoteChar (c : Char) : List Char :=
  match c with
  | '\x00' => ['\\', '0']
  | '\t' => ['\\', 't']
  | '\n' => ['\\', 'n']
  | '\r' => ['\\', 'r']
  | '"' => ['\\', '"']
  | '\\' => ['\\', '\\']
  | c =>
    if isUnprinted c then ['\\', 'u', '\x7b'] ++ hexDigits c.toNat ++ ['\x7d'] else [c]

/-- The text between double quotes. -/
def quoted (s : String) : String :=
  String.ofList ('"' :: s.toList.flatMap quoteChar ++ ['"'])

example : quoteChar '\x07' = ['\\', 'u', '\x7b', '7', '\x7d'] := by decide
example : quoteChar '\'' = ['\''] := by decide
example : quoteChar 'é' = ['é'] := by decide +kernel

end UmlSkeleton.Text

import UmlSkeleton.Text.Quoted

/-!
# Documents as trees, and their text

A `Tree` is what a document says. `compact` writes it without any white space, `pretty` with two
spaces a level, one item or member a line, and empty containers closed at once. Members keep the
order in which they are listed.
-/

namespace UmlSkeleton.Json

/-- A value of a document. -/
inductive Tree where
  | null
  | integer (value : Int)
  | text (value : String)
  | list (items : List Tree)
  | object (members : List (String × Tree))

/-! ### Strings and integers -/

/-- One character of a string: quotes, backslashes and control characters are escaped. -/
def escapeChar (c : Char) : List Char :=
  match c with
  | '"' => ['\\', '"']
  | '\\' => ['\\', '\\']
  | '\x08' => ['\\', 'b']
  | '\x0c' => ['\\', 'f']
  | '\n' => ['\\', 'n']
  | '\r' => ['\\', 'r']
  | '\t' => ['\\', 't']
  | c =>
    if c.toNat < 0x20 then
      ['\\', 'u', '0', '0', (c.toNat / 16).digitChar, (c.toNat % 16).digitChar]
    else [c]

/-- A string with its quotes. -/
def writeString (s : String) : List Char := '"' :: s.toList.flatMap escapeChar ++ ['"']

/-- An integer in decimal digits. -/
def writeInteger (n : Int) : List Char :=
  if n < 0 then '-' :: Nat.toDigits 10 n.natAbs else Nat.toDigits 10 n.natAbs

/-! ### Without white space -/

mutual

def Tree.compactChars : Tree → List Char
  | .null => ['n', 'u', 'l', 'l']
  | .integer value => writeInteger value
  | .text value => writeString value
  | .list items => '[' :: compactItems items ++ [']']
  | .object members => '\x7b' :: compactMembers members ++ ['\x7d']

/-- The items with commas between them. -/
def Tree.compactItems : List Tree → List Char
  | [] => []
  | [item] => item.compactChars
  | item :: more => item.compactChars ++ ',' :: compactItems more

/-- The members with commas between them. -/
def Tree.compactMembers : List (String × Tree) → List Char
  | [] => []
  | [(key, value)] => writeString key ++ ':' :: value.compactChars
  | (key, value) :: more =>
    writeString key ++ ':' :: value.compactChars ++ ',' :: compactMembers more

end

/-- The tree without white space. -/
def Tree.compact (t : Tree) : String := String.ofList t.compactChars

/-! ### With one item a line -/

/-- A new line at this level. -/
def newLine (level : Nat) : List Char := '\n' :: List.replicate (2 * level) ' '

mutual

def Tree.prettyChars (level : Nat) : Tree → List Char
  | .null => ['n', 'u', 'l', 'l']
  | .integer value => writeInteger value
  | .text value => writeString value
  | .list [] => ['[', ']']
  | .list (item :: more) =>
    '[' :: newLine (level + 1) ++ item.prettyChars (level + 1) ++ prettyItems (level + 1) more ++
      newLine level ++ [']']
  | .object [] => ['\x7b', '\x7d']
  | .object ((key, value) :: more) =>
    '\x7b' :: newLine (level + 1) ++ writeString key ++ [':', ' '] ++
      value.prettyChars (level + 1) ++ prettyMembers (level + 1) more ++ newLine level ++ ['\x7d']

/-- The items after the first, each on a line of its own. -/
def Tree.prettyItems (level : Nat) : List Tree → List Char
  | [] => []
  | item :: more => ',' :: newLine level ++ item.prettyChars level ++ prettyItems level more

/-- The members after the first, each on a line of its own. -/
def Tree.prettyMembers (level : Nat) : List (String × Tree) → List Char
  | [] => []
  | (key, value) :: more =>
    ',' :: newLine level ++ writeString key ++ [':', ' '] ++ value.prettyChars level ++
      prettyMembers level more

end

/-- The tree with one item or member a line. -/
def Tree.pretty (t : Tree) : String := String.ofList (t.prettyChars 0)

end UmlSkeleton.Json

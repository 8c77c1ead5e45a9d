import UmlSkeleton.Text.Case

/-!
# Visibility of members

A class diagram marks its members with `+`, `-`, `#` or `~`, or with a word for the same four
levels, in any case and with any blanks around it. Every other text is kept as it was written; it
is no visibility, and a proof of that is kept with it, so a text has one visibility and a
visibility one text.
-/

namespace UmlSkeleton

open Text

/-- Who may use a member. -/
inductive Access where
  | everyone
  | owner
  | heirs
  | package
  deriving DecidableEq, Repr

namespace Access

/-- All levels. -/
def all : List Access := [.everyone, .owner, .heirs, .package]

/-- The mark in a diagram. -/
def mark : Access → Char
  | .everyone => '+'
  | .owner => '-'
  | .heirs => '#'
  | .package => '~'

/-- The word for a level. -/
def word : Access → String
  | .everyone => "public"
  | .owner => "private"
  | .heirs => "protected"
  | .package => "package"

/-- The level with this mark. -/
def ofMark? (c : Char) : Option Access := all.find? (·.mark = c)

/-- The level whose mark or word a text is, blanks and case aside. -/
def ofText? (s : String) : Option Access :=
  all.find? fun a => trim s = a.mark.toString || fold s = a.word

end Access

/-- The visibility of a member: a level, or a text that names none. -/
inductive Visibility where
  | level (access : Access)
  | other (text : String) (unknown : Access.ofText? text = none)
  deriving DecidableEq

namespace Visibility

def ofText (s : String) : Visibility :=
  match h : Access.ofText? s with
  | some access => .level access
  | none => .other s h

/-- The visibility of a member that names none. -/
def ofOption (s : Option String) : Visibility := ofText (s.getD "")

/-- The word for a level, or the text as it was written. -/
def text : Visibility → String
  | .level access => access.word
  | .other text _ => text

/-- The level, if it is one. -/
def access? : Visibility → Option Access
  | .level access => some access
  | .other _ _ => none

/-- The mark in a diagram. -/
def mark? (v : Visibility) : Option Char := v.access?.map Access.mark

end Visibility

end UmlSkeleton

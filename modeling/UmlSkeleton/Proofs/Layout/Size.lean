import UmlSkeleton.Proofs.Layout.Lines

/-!
# The size of rows

How many bytes some rows take can be counted without writing them: each row takes its indentation, what it
says and the end of its line.

* `utf8ByteSize_textOfRows` — this is the size of their text.
-/

namespace UmlSkeleton

/-- How many bytes a row takes at this width of an indentation, with the end of its line. -/
def Row.size (width : Nat) (row : Row) : Nat :=
  if row.text = "" then 1 else row.depth * width + row.text.utf8ByteSize + 1

/-- How many bytes some rows take. -/
def sizeOfRows (width : Nat) (rs : List Row) : Nat := (rs.map (·.size width)).foldr (· + ·) 0

theorem utf8ByteSize_spaces (n : Nat) : (String.ofList (List.replicate n ' ')).utf8ByteSize = n := by
  induction n with
  | zero => rfl
  | succ n ih =>
      rw [List.replicate_succ', String.ofList_append, String.utf8ByteSize_append, ih]
      rfl

theorem Row.utf8ByteSize_line (width : Nat) (row : Row) :
    (row.line width ++ "\n").utf8ByteSize = row.size width := by
  rw [String.utf8ByteSize_append, Row.line, Row.size]
  split
  · rfl
  · rw [String.utf8ByteSize_append, utf8ByteSize_spaces]
    rfl

theorem sizeOfRows_cons (width : Nat) (row : Row) (rs : List Row) :
    sizeOfRows width (row :: rs) = row.size width + sizeOfRows width rs := rfl

theorem sizeOfRows_append (width : Nat) (rs ss : List Row) :
    sizeOfRows width (rs ++ ss) = sizeOfRows width rs + sizeOfRows width ss := by
  induction rs with
  | nil => exact (Nat.zero_add _).symm
  | cons row rs ih => rw [List.cons_append, sizeOfRows_cons, sizeOfRows_cons, ih, Nat.add_assoc]

/-- The size of some rows is that of their text. -/
theorem utf8ByteSize_textOfRows (width : Nat) (rs : List Row) :
    (textOfRows width rs).utf8ByteSize = sizeOfRows width rs := by
  induction rs with
  | nil => rfl
  | cons row rs ih =>
      have hrow : textOfRows width (row :: rs) = row.line width ++ "\n" ++ textOfRows width rs := by
        rw [← textOfRows_singleton]
        exact textOfRows_append width [row] rs
      rw [hrow, String.utf8ByteSize_append, row.utf8ByteSize_line, ih, sizeOfRows_cons]

end UmlSkeleton

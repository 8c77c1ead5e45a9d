/-!
# Layout of indented text

A text is laid out by steps: write a line, open a block, close it, leave a blank line. `rows` turns
the steps into rows, each a text at a depth; it decides where a blank line is due and never looks
at how wide an indentation is. Only `Row.chars` does, and a blank row has no spaces at any width.

A `gap` separates siblings: it leaves one blank line unless the last step opened a block or left a
blank line already.
-/

namespace UmlSkeleton

/-- One step of a layout. -/
inductive Step where
  /-- A line at the current depth. -/
  | line (text : String)
  /-- A line that opens a block: what follows is one deeper. -/
  | enter (text : String)
  /-- A line that closes a block: it is one less deep itself. -/
  | leave (text : String)
  /-- A blank line. -/
  | blank
  /-- A blank line, if one is due. -/
  | gap
  /-- What follows is one deeper. -/
  | indent
  /-- What follows is one less deep. -/
  | dedent
  deriving DecidableEq, Repr

/-- Where a layout stands: how deep, and whether a gap would leave a blank line. -/
structure Margin where
  depth : Nat
  due : Bool
  deriving DecidableEq, Repr

/-- The beginning of a text. -/
def Margin.start : Margin := ⟨0, false⟩

/-- One line of the text. -/
structure Row where
  depth : Nat
  text : String
  deriving DecidableEq, Repr

namespace Step

/-- The row that a step writes, if it writes one. -/
def row? (m : Margin) : Step → Option Row
  | .line text => some ⟨m.depth, text⟩
  | .enter text => some ⟨m.depth, text⟩
  | .leave text => some ⟨m.depth - 1, text⟩
  | .blank => some ⟨m.depth, ""⟩
  | .gap => if m.due then some ⟨m.depth, ""⟩ else none
  | .indent => none
  | .dedent => none

/-- Where the layout stands after a step. -/
def after (m : Margin) : Step → Margin
  | .line _ => ⟨m.depth, true⟩
  | .enter _ => ⟨m.depth + 1, false⟩
  | .leave _ => ⟨m.depth - 1, true⟩
  | .blank => ⟨m.depth, false⟩
  | .gap => ⟨m.depth, false⟩
  | .indent => ⟨m.depth + 1, m.due⟩
  | .dedent => ⟨m.depth - 1, m.due⟩

end Step

/-- Where the layout stands after some steps. -/
def Margin.run (m : Margin) (steps : List Step) : Margin := steps.foldl Step.after m

/-- The rows that some steps write. -/
def rows (m : Margin) : List Step → List Row
  | [] => []
  | step :: more => (step.row? m).toList ++ rows (step.after m) more

/-! ### Text -/

/-- A row at this width of an indentation, with the end of its line. Its indentation is as wide as it is said
to be, however wide that is; a `Writer`, which counts in words, writes the same where it is a word. -/
def Row.chars (width : Nat) (row : Row) : List Char :=
  if row.text = "" then ['\n']
  else List.replicate (row.depth * width) ' ' ++ row.text.toList ++ ['\n']

/-- The text of some rows. -/
def textOfRows (width : Nat) (rs : List Row) : String := String.ofList (rs.flatMap (·.chars width))

/-- The text that some steps lay out from the beginning. -/
def layOut (width : Nat) (steps : List Step) : String := textOfRows width (rows .start steps)

/-! ### Pages: a layout that grows -/

/-- The rows written so far, and where the layout stands. -/
structure Page where
  width : Nat
  rows : List Row
  margin : Margin

namespace Page

/-- An empty page. -/
def new (width : Nat) : Page := ⟨width, [], .start⟩

/-- The page after some more steps. -/
def write (p : Page) (steps : List Step) : Page :=
  { p with
    rows := p.rows ++ UmlSkeleton.rows p.margin steps
    margin := p.margin.run steps }

def text (p : Page) : String := textOfRows p.width p.rows

def isEmpty (p : Page) : Bool := p.rows.isEmpty

end Page

/-! ### One after the other -/

theorem rows_append (m : Margin) (xs ys : List Step) :
    rows m (xs ++ ys) = rows m xs ++ rows (m.run xs) ys := by
  induction xs generalizing m with
  | nil => rfl
  | cons x xs ih => simp only [List.cons_append, rows, ih, List.append_assoc, Margin.run,
      List.foldl_cons]

theorem Margin.run_append (m : Margin) (xs ys : List Step) :
    m.run (xs ++ ys) = (m.run xs).run ys :=
  List.foldl_append

theorem textOfRows_append (width : Nat) (rs ss : List Row) :
    textOfRows width (rs ++ ss) = textOfRows width rs ++ textOfRows width ss := by
  simp [textOfRows]

/-- Writing in two goes is writing in one. -/
theorem Page.write_write (p : Page) (xs ys : List Step) :
    (p.write xs).write ys = p.write (xs ++ ys) := by
  simp [Page.write, rows_append, Margin.run_append]

end UmlSkeleton

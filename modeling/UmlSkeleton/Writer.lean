import UmlSkeleton.Layout

/-!
# Writing on a machine

`textOfRows` is the text that rows stand for, however large it is. A machine counts in words, and
keeps what it writes in one buffer, which asks for more memory whenever it is full. A `Writer` takes
the steps of a layout on such a machine, one after the other. It may come to a halt before the last
one: when arithmetic leaves the words, when a buffer would be larger than any buffer can be, or when
there is no memory for it.
-/

namespace UmlSkeleton

/-! ### Machines -/

/-- What the machine below a program does that the program does not decide. A buffer never asks twice
for the same capacity, so `grants` may be any allocator. -/
structure Machine where
  /-- Arithmetic that leaves the words is an error. If it is not checked, it goes around. -/
  checked : Bool
  /-- There is memory for a buffer of this capacity. -/
  grants : Nat → Bool

/-- Why a writer comes to a halt. -/
inductive Halt where
  /-- A number is no word. -/
  | overflow
  /-- A buffer would be larger than any buffer can be. -/
  | capacity
  /-- There is no memory for a buffer. -/
  | memory
  deriving DecidableEq, Repr

/-- The most bytes for which a buffer can have room. One bit of a word is for the sign. -/
def maxCapacity : Nat := UInt64.size / 2 - 1

/-- The fewest bytes for which a buffer has room, once it has any. -/
def leastCapacity : Nat := 8

namespace Machine

/-- The word that comes out of some arithmetic. -/
def word (machine : Machine) (n : Nat) : Except Halt Nat :=
  if n < UInt64.size then .ok n
  else if machine.checked then .error .overflow
  else .ok (n % UInt64.size)

/-- Ask for the memory of a buffer. -/
def allocate (machine : Machine) (capacity : Nat) : Except Halt Unit :=
  if maxCapacity < capacity then .error .capacity
  else if machine.grants capacity then .ok ()
  else .error .memory

end Machine

/-! ### Buffers -/

/-- A text that grows, and how many bytes there is room for. -/
structure Buffer where
  text : String
  capacity : Nat
  deriving Repr

namespace Buffer

/-- An empty buffer, which has no room yet. -/
def empty : Buffer := ⟨"", 0⟩

/-- The buffer with room for some more bytes. If there is too little, it gets at least twice as much
as it had. -/
def reserve (machine : Machine) (bytes : Nat) (b : Buffer) : Except Halt Buffer :=
  let needed := b.text.utf8ByteSize + bytes
  if needed ≤ b.capacity then .ok b
  else do
    let capacity := max (max (2 * b.capacity) needed) leastCapacity
    machine.allocate capacity
    return { b with capacity }

/-- The buffer with a text at its end. -/
def push (machine : Machine) (text : String) (b : Buffer) : Except Halt Buffer := do
  let b ← b.reserve machine text.utf8ByteSize
  return { b with text := b.text ++ text }

/-- The buffer with some spaces at its end. There has to be room for all of them beforehand. -/
def pad (machine : Machine) (spaces : Nat) (b : Buffer) : Except Halt Buffer := do
  let b ← b.reserve machine spaces
  return { b with text := b.text ++ String.ofList (List.replicate spaces ' ') }

/-- The buffer with the line of a row at its end: nothing, or a text behind its indentation. -/
def pushLine (machine : Machine) (width : Nat) (row : Row) (b : Buffer) : Except Halt Buffer :=
  if row.text = "" then .ok b
  else do
    let spaces ← machine.word (row.depth * width)
    let indented ← b.pad machine spaces
    indented.push machine row.text

/-- The buffer with a row at its end. -/
def pushRow (machine : Machine) (width : Nat) (row : Row) (b : Buffer) : Except Halt Buffer := do
  let line ← b.pushLine machine width row
  line.push machine "\n"

/-- The buffer with a row at its end, if there is one to write. -/
def pushRow? (machine : Machine) (width : Nat) (row? : Option Row) (b : Buffer) :
    Except Halt Buffer :=
  match row? with
  | none => .ok b
  | some row => b.pushRow machine width row

end Buffer

/-! ### Writers -/

/-- A layout on its way into a buffer. -/
structure Writer where
  width : Nat
  margin : Margin
  buffer : Buffer
  deriving Repr

namespace Writer

/-- A writer that has written nothing. -/
def new (width : Nat) : Writer := ⟨width, .start, .empty⟩

def text (w : Writer) : String := w.buffer.text

/-- The writer after one more step. -/
def step (machine : Machine) (w : Writer) (step : Step) : Except Halt Writer := do
  let buffer ← w.buffer.pushRow? machine w.width (step.row? w.margin)
  let depth ← machine.word (step.after w.margin).depth
  return ⟨w.width, { step.after w.margin with depth }, buffer⟩

/-- The writer after some more steps. -/
def run (machine : Machine) (w : Writer) : List Step → Except Halt Writer
  | [] => .ok w
  | step :: more => do (← w.step machine step).run machine more

end Writer

end UmlSkeleton

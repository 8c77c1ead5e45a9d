import UmlSkeleton.Decimal.Shortest
import UmlSkeleton.Text.Quoted

/-!
# Faults in a document

A reader that stops says why (`Cause`) and where: a `Fault` holds what is left of the input at the
cursor and how many bytes beyond the cursor the blame lies. Only when the whole text is at hand
does this become a line and a column; columns count bytes from the line's beginning. The wording
of all messages is in this module.
-/

namespace UmlSkeleton.Json

open Decimal Text

/-! ### Causes -/

/-- What stood where something else was expected. -/
inductive Found where
  | null
  | boolean (value : Bool)
  | integer (value : Int)
  | floating (value : Binary64)
  | text (value : String)
  | sequence
  | map
  deriving DecidableEq, Repr

/-- Why reading stopped. -/
inductive Cause where
  | unfinishedValue
  | unfinishedText
  | unfinishedList
  | unfinishedObject
  | noValue
  | brokenLiteral
  | noColon
  | noListComma
  | noObjectComma
  | keyNotText
  | trailingComma
  | trailingCharacters
  | badNumber
  | numberTooLarge
  | badEscape
  | controlCharacter
  | loneSurrogate
  | brokenPair
  | wrongType (found : Found) (expected : String)
  | outOfRange (value : Int) (expected : String)
  | tooShort (length : Nat) (expected : String)
  | missingField (name : String)
  | duplicateField (name : String)
  | unknownVariant (name : String) (known : List String)
  deriving DecidableEq, Repr

/-- Numbers in messages keep a point up to `10 ^ 16` and down to `10 ^ -5`. -/
def numberStyle : Style := ⟨-5, 15⟩

/-- The text between backquotes. -/
def ticked (s : String) : String := "`" ++ s ++ "`"

def Found.description : Found → String
  | .null => "null"
  | .boolean value => "boolean " ++ ticked (if value then "true" else "false")
  | .integer value => "integer " ++ ticked (toString value)
  | .floating value => "floating point " ++ ticked (value.text numberStyle)
  | .text value => "string " ++ quoted value
  | .sequence => "sequence"
  | .map => "map"

def Cause.message : Cause → String
  | .unfinishedValue => "EOF while parsing a value"
  | .unfinishedText => "EOF while parsing a string"
  | .unfinishedList => "EOF while parsing a list"
  | .unfinishedObject => "EOF while parsing an object"
  | .noValue => "expected value"
  | .brokenLiteral => "expected ident"
  | .noColon => "expected `:`"
  | .noListComma => "expected `,` or `]`"
  | .noObjectComma => "expected `,` or " ++ ticked "\x7d"
  | .keyNotText => "key must be a string"
  | .trailingComma => "trailing comma"
  | .trailingCharacters => "trailing characters"
  | .badNumber => "invalid number"
  | .numberTooLarge => "number out of range"
  | .badEscape => "invalid escape"
  | .controlCharacter => "control character (\\u0000-\\u001F) found while parsing a string"
  | .loneSurrogate => "lone leading surrogate in hex escape"
  | .brokenPair => "unexpected end of hex escape"
  | .wrongType found expected => "invalid type: " ++ found.description ++ ", expected " ++ expected
  | .outOfRange value expected =>
    "invalid value: " ++ (Found.integer value).description ++ ", expected " ++ expected
  | .tooShort length expected => "invalid length " ++ toString length ++ ", expected " ++ expected
  | .missingField name => "missing field " ++ ticked name
  | .duplicateField name => "duplicate field " ++ ticked name
  | .unknownVariant name known =>
    "unknown variant " ++ ticked name ++ ", expected one of " ++
      ", ".intercalate (known.map ticked)

/-! ### Places -/

/-- A cause, the input left at the cursor, and how many bytes beyond the cursor it is blamed. -/
structure Fault where
  cause : Cause
  rest : List Char
  beyond : Nat
  deriving DecidableEq, Repr

/-- A fault at the cursor. -/
def Fault.here (cause : Cause) (rest : List Char) : Fault := ⟨cause, rest, 0⟩

/-- A fault at the byte after the cursor, or at the end of the input. -/
def Fault.next (cause : Cause) (rest : List Char) : Fault := ⟨cause, rest, 1⟩

/-- A line, from one, and the bytes before it on that line. -/
structure Position where
  line : Nat
  column : Nat
  deriving DecidableEq, Repr

namespace Position

def start : Position := ⟨1, 0⟩

/-- The position after a character. -/
def past (p : Position) (c : Char) : Position :=
  if c = '\n' then ⟨p.line + 1, 0⟩ else ⟨p.line, p.column + c.utf8Size⟩

/-- The position after so many bytes, which may end inside a character, or at the end. -/
def pastBytes (p : Position) (bytes : Nat) : List Char → Position
  | [] => p
  | c :: cs =>
    if c.utf8Size ≤ bytes then (p.past c).pastBytes (bytes - c.utf8Size) cs
    else ⟨p.line, p.column + bytes⟩

end Position

/-- Where the fault is in the text that was read. -/
def Fault.position (fault : Fault) (text : List Char) : Position :=
  let read := text.take (text.length - fault.rest.length)
  (read.foldl Position.past Position.start).pastBytes fault.beyond fault.rest

/-- A cause with its place in the document. -/
structure DecodeError where
  cause : Cause
  position : Position
  deriving DecidableEq, Repr

def DecodeError.message (e : DecodeError) : String :=
  e.cause.message ++ " at line " ++ toString e.position.line ++ " column " ++
    toString e.position.column

/-! ### Steps that may fail -/

/-- When two steps in a row succeed, the first one did. -/
theorem exists_of_bind_eq_ok {x : Except ε α} {f : α → Except ε β} {b : β}
    (h : x >>= f = .ok b) : ∃ a, x = .ok a ∧ f a = .ok b := by
  cases x with
  | error _ => cases h
  | ok a => exact ⟨a, rfl, h⟩

end UmlSkeleton.Json

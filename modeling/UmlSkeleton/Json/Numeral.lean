import UmlSkeleton.Json.Literal

/-!
# Numbers

Reading a number has two halves. `Numeral.scan` splits off the longest numeral: an optional minus,
digits without a superfluous zero in front, an optional fraction and an optional power of ten. It
stops only where a digit is missing or one too many. `Numeral.number` then says which number it
is: an integer if it is written as one and fits a machine word, otherwise the double near it.
-/

namespace UmlSkeleton.Json

open Decimal

/-! ### The parts of a numeral -/

/-- A numeral by its parts: the digits before the point, those after it, and the power of ten with
its sign (`true` for a minus). -/
structure Numeral where
  negative : Bool
  whole : List Char
  fraction : List Char
  power : Option (Bool × List Char)
  deriving DecidableEq, Repr

/-- The digits in front, and the input after them. -/
def spanDigits (cs : List Char) : List Char × List Char :=
  (cs.takeWhile Char.isDigit, cs.dropWhile Char.isDigit)

theorem append_of_spanDigits (cs : List Char) : (spanDigits cs).1 ++ (spanDigits cs).2 = cs :=
  List.takeWhile_append_dropWhile

theorem length_spanDigits_le (cs : List Char) : (spanDigits cs).2.length ≤ cs.length :=
  length_dropWhile_le Char.isDigit cs

namespace Numeral

/-- The digits before the point. The error is the input from the place where a digit is missing,
or where one follows a leading zero. -/
def scanWhole : List Char → Except (List Char) (List Char × List Char)
  | [] => .error []
  | c :: rest =>
    if c = '0' then
      match rest with
      | [] => .ok ([c], [])
      | d :: more => if d.isDigit then .error (d :: more) else .ok ([c], d :: more)
    else if c.isDigit then .ok (c :: (spanDigits rest).1, (spanDigits rest).2)
    else .error (c :: rest)

/-- The point and the digits after it, if there is a point. -/
def scanFraction : List Char → Except (List Char) (List Char × List Char)
  | '.' :: rest =>
    match spanDigits rest with
    | ([], _) => .error rest
    | (digits, after) => .ok (digits, after)
  | cs => .ok ([], cs)

/-- The sign of the power of ten, if it has one. -/
def powerSign : List Char → Bool × List Char
  | '+' :: rest => (false, rest)
  | '-' :: rest => (true, rest)
  | cs => (false, cs)

/-- The power of ten, if there is one. -/
def scanPower : List Char → Except (List Char) (Option (Bool × List Char) × List Char)
  | [] => .ok (none, [])
  | c :: rest =>
    if c = 'e' ∨ c = 'E' then
      match spanDigits (powerSign rest).2 with
      | ([], _) => .error (powerSign rest).2
      | (digits, after) => .ok (some ((powerSign rest).1, digits), after)
    else .ok (none, c :: rest)

/-- A minus in front. -/
def minus : List Char → Bool × List Char
  | '-' :: rest => (true, rest)
  | cs => (false, cs)

/-- The longest numeral in front and the input after it. The error is the input from the place of
the missing or superfluous digit. -/
def scan (cs : List Char) : Except (List Char) (Numeral × List Char) := do
  let (whole, afterWhole) ← scanWhole (minus cs).2
  let (fraction, afterFraction) ← scanFraction afterWhole
  let (power, rest) ← scanPower afterFraction
  return (⟨(minus cs).1, whole, fraction, power⟩, rest)

/-! ### A numeral takes up some input -/

theorem length_lt_of_scanWhole {cs digits rest : List Char}
    (h : scanWhole cs = .ok (digits, rest)) : rest.length < cs.length := by
  unfold scanWhole at h
  split at h
  · cases h
  · next c cs =>
    split at h
    · split at h
      · cases h; exact Nat.lt_succ_self _
      · split at h
        · cases h
        · cases h; exact Nat.lt_succ_self _
    · split at h
      · cases h; exact Nat.lt_succ_of_le (length_spanDigits_le cs)
      · cases h

theorem length_le_of_scanFraction {cs digits rest : List Char}
    (h : scanFraction cs = .ok (digits, rest)) : rest.length ≤ cs.length := by
  unfold scanFraction at h
  split at h
  · next more =>
    have := length_spanDigits_le more
    split at h
    · cases h
    · next hs =>
      cases h
      rw [hs] at this
      exact Nat.le_succ_of_le this
  · cases h; exact Nat.le_refl _

theorem length_powerSign_le (cs : List Char) : (powerSign cs).2.length ≤ cs.length := by
  unfold powerSign
  split
  · exact Nat.le_succ _
  · exact Nat.le_succ _
  · exact Nat.le_refl _

theorem length_le_of_scanPower {cs rest : List Char} {power : Option (Bool × List Char)}
    (h : scanPower cs = .ok (power, rest)) : rest.length ≤ cs.length := by
  match cs with
  | [] => cases h; exact Nat.le_refl _
  | c :: cs =>
    rw [scanPower] at h
    split at h
    · have sign := length_powerSign_le cs
      have digits := length_spanDigits_le (powerSign cs).2
      split at h
      · cases h
      · next hs =>
        cases h
        rw [hs] at digits
        exact Nat.le_succ_of_le (Nat.le_trans digits sign)
    · cases h; exact Nat.le_refl _

theorem length_minus_le (cs : List Char) : (minus cs).2.length ≤ cs.length := by
  unfold minus
  split
  · exact Nat.le_succ _
  · exact Nat.le_refl _

theorem length_lt_of_scan {cs rest : List Char} {numeral : Numeral}
    (h : scan cs = .ok (numeral, rest)) : rest.length < cs.length := by
  rw [scan] at h
  obtain ⟨⟨whole, afterWhole⟩, hw, h⟩ := exists_of_bind_eq_ok h
  obtain ⟨⟨fraction, afterFraction⟩, hf, h⟩ := exists_of_bind_eq_ok h
  obtain ⟨⟨power, after⟩, hp, h⟩ := exists_of_bind_eq_ok h
  cases h
  have := length_minus_le cs
  have := length_lt_of_scanWhole hw
  have := length_le_of_scanFraction hf
  have := length_le_of_scanPower hp
  omega

/-! ### The digits as a scaled integer

Digits are gathered into a machine word. Digits before the point that no longer fit raise the
power of ten instead; digits after it that no longer fit are dropped. -/

/-- The greatest significand. -/
def maxWord : Nat := UInt64.size - 1

/-- The number `word · 10 ^ power`; `full` when a digit did not fit. -/
structure Scaled where
  word : Nat
  power : Int
  full : Bool

def digitValue (c : Char) : Nat := c.toNat - '0'.toNat

def Scaled.pushWhole (s : Scaled) (c : Char) : Scaled :=
  if s.full then { s with power := s.power + 1 }
  else if s.word * 10 + digitValue c ≤ maxWord then { s with word := s.word * 10 + digitValue c }
  else { s with power := s.power + 1, full := true }

def Scaled.pushFraction (s : Scaled) (c : Char) : Scaled :=
  if s.full then s
  else if s.word * 10 + digitValue c ≤ maxWord then
    { s with word := s.word * 10 + digitValue c, power := s.power - 1 }
  else { s with full := true }

/-- The digits before the point. -/
def wholePart (n : Numeral) : Scaled := n.whole.foldl .pushWhole ⟨0, 0, false⟩

/-- All digits. -/
def significand (n : Numeral) : Scaled :=
  n.fraction.foldl .pushFraction { n.wholePart with full := false }

/-! ### The number -/

/-- What a numeral stands for. -/
inductive Number where
  | integer (value : Int)
  | floating (value : Binary64)
  deriving DecidableEq, Repr

/-- A power of ten is followed up to here. -/
def maxPower : Nat := 0x7FFFFFFF

/-- The value of the digits, or, once it exceeds `maxPower`, the digits not looked at. -/
def powerValue (value : Nat) : List Char → Except (List Char) Nat
  | [] => .ok value
  | c :: cs =>
    let value := value * 10 + digitValue c
    if maxPower < value then .error cs else powerValue value cs

/-- The double for a scaled integer; the error says that it is too large. -/
def toDouble (negative : Bool) (word : Nat) (power : Int) : Except (List Char) Number :=
  match Magnitude.ofDecimal? word power with
  | some magnitude => .ok (.floating ⟨negative, magnitude⟩)
  | none => .error []

/-- The number of a numeral without fraction and power: an integer if it fits. The negative zero
is a double. -/
def wholeNumber (negative : Bool) (s : Scaled) : Except (List Char) Number :=
  if s.full then toDouble negative s.word s.power
  else if !negative then .ok (.integer s.word)
  else if s.word = 0 ∨ 0x8000000000000000 < s.word then toDouble true s.word 0
  else .ok (.integer (-(s.word : Int)))

/-- The number of a numeral. It may be too large for a double; the error is then the part of the
numeral that was not needed to see it. -/
def number (n : Numeral) : Except (List Char) Number :=
  match n.power with
  | some (down, digits) =>
    match powerValue 0 digits with
    | .ok value =>
      toDouble n.negative n.significand.word
        (n.significand.power + (if down then -(value : Int) else value))
    | .error unread =>
      if n.significand.word = 0 ∨ down then .ok (.floating ⟨n.negative, .zero⟩)
      else .error unread
  | none =>
    if n.fraction.isEmpty then wholeNumber n.negative n.wholePart
    else toDouble n.negative n.significand.word n.significand.power

end Numeral

/-! ### Reading -/

/-- Read a number and find its value. -/
def readNumber (cs : List Char) : Except Fault (Numeral.Number × List Char) :=
  match Numeral.scan cs with
  | .error [] => .error (.next .unfinishedValue [])
  | .error place => .error (.next .badNumber place)
  | .ok (numeral, rest) =>
    match numeral.number with
    | .ok number => .ok (number, rest)
    | .error unread => .error (.here .numberTooLarge (unread ++ rest))

/-- Pass over a number without asking for its value. -/
def skipNumber (cs : List Char) : Except Fault (List Char) :=
  match Numeral.scan cs with
  | .error place => .error (.next .badNumber place)
  | .ok (_, rest) => .ok rest

theorem length_lt_of_readNumber {cs rest : List Char} {number : Numeral.Number}
    (h : readNumber cs = .ok (number, rest)) : rest.length < cs.length := by
  rw [readNumber] at h
  split at h
  · cases h
  · cases h
  · next hs =>
    split at h
    · cases h; exact Numeral.length_lt_of_scan hs
    · cases h

theorem length_lt_of_skipNumber {cs rest : List Char}
    (h : skipNumber cs = .ok rest) : rest.length < cs.length := by
  rw [skipNumber] at h
  split at h
  · cases h
  · next hs => cases h; exact Numeral.length_lt_of_scan hs

/-- A character that a number can begin with. -/
def startsNumber (c : Char) : Bool := c == '-' || c.isDigit

end UmlSkeleton.Json

import UmlSkeleton.Json.Literal

/-!
# Strings

A string runs to the next quote. A backslash announces one of eight short escapes or the number of
a UTF-16 unit in four hexadecimal digits, where a character outside the basic plane takes two such
escapes. `readString` gives the text; `skipString` passes over a string that nobody asked for and
does not look at how its surrogates pair up.

Both begin after the opening quote.
-/

namespace UmlSkeleton.Json

/-! ### Hexadecimal digits -/

/-- The value of a hexadecimal digit. -/
def hexValue? (c : Char) : Option Nat :=
  if c.isDigit then some (c.toNat - '0'.toNat)
  else if 'a' ≤ c ∧ c ≤ 'f' then some (c.toNat - 'a'.toNat + 10)
  else if 'A' ≤ c ∧ c ≤ 'F' then some (c.toNat - 'A'.toNat + 10)
  else none

/-- The value of four hexadecimal digits. -/
def hexQuad? (a b c d : Char) : Option Nat := do
  return ((← hexValue? a) * 16 + (← hexValue? b)) * 256 + (← hexValue? c) * 16 + (← hexValue? d)

/-- The bytes of some characters. -/
def byteCount (cs : List Char) : Nat := cs.foldl (fun n c => n + c.utf8Size) 0

/-- The fault of four bytes that are not four hexadecimal digits, or of fewer than four. -/
def hexFault (cs : List Char) : Fault :=
  ⟨if byteCount (cs.take 4) < 4 then .unfinishedText else .badEscape, cs, 4⟩

/-- A unit written in four hexadecimal digits. -/
def readUnit : List Char → Except Fault (Nat × List Char)
  | a :: b :: c :: d :: rest =>
    match hexQuad? a b c d with
    | some unit => .ok (unit, rest)
    | none => .error (hexFault (a :: b :: c :: d :: rest))
  | cs => .error (hexFault cs)

theorem length_lt_of_readUnit {cs rest : List Char} {unit : Nat}
    (h : readUnit cs = .ok (unit, rest)) : rest.length < cs.length := by
  unfold readUnit at h
  split at h
  · split at h
    · cases h; simp only [List.length_cons]; omega
    · cases h
  · cases h

/-! ### Escapes -/

/-- The character of a short escape, by its letter. -/
def shortEscape? : Char → Option Char
  | '"' => some '"'
  | '\\' => some '\\'
  | '/' => some '/'
  | 'b' => some '\x08'
  | 'f' => some '\x0c'
  | 'n' => some '\n'
  | 'r' => some '\r'
  | 't' => some '\t'
  | _ => none

/-- The first unit of a pair. -/
def isLead (unit : Nat) : Bool := 0xD800 ≤ unit && unit ≤ 0xDBFF

/-- The second unit of a pair. -/
def isTrail (unit : Nat) : Bool := 0xDC00 ≤ unit && unit ≤ 0xDFFF

/-- The character of a pair. -/
def joinUnits (lead trail : Nat) : Char :=
  Char.ofNat (0x10000 + (lead - 0xD800) * 0x400 + (trail - 0xDC00))

/-- The second half of a pair, from its backslash on. -/
def readTrail (lead : Nat) : List Char → Except Fault (Char × List Char)
  | [] => .error (.here .unfinishedText [])
  | c :: rest =>
    if c = '\\' then
      match rest with
      | [] => .error (.here .unfinishedText [])
      | d :: rest =>
        if d = 'u' then
          match readUnit rest with
          | .error fault => .error fault
          | .ok (trail, rest) =>
            if isTrail trail then .ok (joinUnits lead trail, rest)
            else .error (.here .loneSurrogate rest)
        else .error (.next .brokenPair (d :: rest))
    else .error (.next .brokenPair (c :: rest))

/-- The character of an escape, from the letter after the backslash on. -/
def readEscape : List Char → Except Fault (Char × List Char)
  | [] => .error (.here .unfinishedText [])
  | c :: rest =>
    if c = 'u' then
      match readUnit rest with
      | .error fault => .error fault
      | .ok (unit, rest) =>
        if isTrail unit then .error (.here .loneSurrogate rest)
        else if isLead unit then readTrail unit rest
        else .ok (Char.ofNat unit, rest)
    else
      match shortEscape? c with
      | some d => .ok (d, rest)
      | none => .error (.next .badEscape (c :: rest))

theorem length_lt_of_readTrail {lead : Nat} {cs rest : List Char} {c : Char}
    (h : readTrail lead cs = .ok (c, rest)) : rest.length < cs.length := by
  unfold readTrail at h
  split at h
  · cases h
  · split at h
    · split at h
      · cases h
      · split at h
        · split at h
          · cases h
          · next hu =>
            have := length_lt_of_readUnit hu
            split at h
            · obtain ⟨-, rfl⟩ := Prod.mk.inj (Except.ok.inj h)
              simp only [List.length_cons]; omega
            · cases h
        · cases h
    · cases h

theorem length_lt_of_readEscape {cs rest : List Char} {c : Char}
    (h : readEscape cs = .ok (c, rest)) : rest.length < cs.length := by
  unfold readEscape at h
  split at h
  · cases h
  · split at h
    · split at h
      · cases h
      · next hu =>
        have := length_lt_of_readUnit hu
        split at h
        · cases h
        · split at h
          · have := length_lt_of_readTrail h
            simp only [List.length_cons]; omega
          · cases h
            simp only [List.length_cons]; omega
    · split at h
      · cases h; exact Nat.lt_succ_self _
      · cases h

/-! ### Strings -/

/-- A character that must be escaped in a string. -/
def isControl (c : Char) : Bool := c.toNat < 0x20

/-- The rest of a string whose characters so far are `read`, the last one first. -/
def readStringAfter (read : List Char) (cs : List Char) : Except Fault (String × List Char) :=
  match cs with
  | [] => .error (.here .unfinishedText [])
  | c :: rest =>
    if c = '"' then .ok (String.ofList read.reverse, rest)
    else if c = '\\' then
      match _h : readEscape rest with
      | .error fault => .error fault
      | .ok (d, rest) => readStringAfter (d :: read) rest
    else if isControl c then .error (.next .controlCharacter (c :: rest))
    else readStringAfter (c :: read) rest
termination_by cs.length
decreasing_by
  · exact Nat.lt_succ_of_lt (length_lt_of_readEscape _h)
  · exact Nat.lt_succ_self _

/-- The text of a string. -/
def readString (cs : List Char) : Except Fault (String × List Char) := readStringAfter [] cs

theorem length_lt_of_readStringAfter {read cs rest : List Char} {s : String}
    (h : readStringAfter read cs = .ok (s, rest)) : rest.length < cs.length := by
  fun_induction readStringAfter read cs with
  | case1 => cases h
  | case2 => cases h; exact Nat.lt_succ_self _
  | case3 => cases h
  | case4 _ _ _ _ he _ ih =>
    exact Nat.lt_trans (ih h) (Nat.lt_succ_of_lt (length_lt_of_readEscape he))
  | case5 => cases h
  | case6 _ _ _ _ _ _ ih => exact Nat.lt_succ_of_lt (ih h)

theorem length_lt_of_readString {cs rest : List Char} {s : String}
    (h : readString cs = .ok (s, rest)) : rest.length < cs.length :=
  length_lt_of_readStringAfter h

/-- Pass over the rest of an escape that is not looked at. -/
def skipEscape : List Char → Except Fault (List Char)
  | [] => .error (.here .unfinishedText [])
  | c :: rest =>
    if c = 'u' then
      match readUnit rest with
      | .error fault => .error fault
      | .ok (_, rest) => .ok rest
    else
      match shortEscape? c with
      | some _ => .ok rest
      | none => .error (.next .badEscape (c :: rest))

theorem length_lt_of_skipEscape {cs rest : List Char}
    (h : skipEscape cs = .ok rest) : rest.length < cs.length := by
  unfold skipEscape at h
  split at h
  · cases h
  · split at h
    · split at h
      · cases h
      · next hu => cases h; exact Nat.lt_succ_of_lt (length_lt_of_readUnit hu)
    · split at h
      · cases h; exact Nat.lt_succ_self _
      · cases h

/-- Pass over a string. A bare control character is blamed in its place. -/
def skipString (cs : List Char) : Except Fault (List Char) :=
  match cs with
  | [] => .error (.here .unfinishedText [])
  | c :: rest =>
    if c = '"' then .ok rest
    else if c = '\\' then
      match _h : skipEscape rest with
      | .error fault => .error fault
      | .ok rest => skipString rest
    else if isControl c then .error (.here .controlCharacter (c :: rest))
    else skipString rest
termination_by cs.length
decreasing_by
  · exact Nat.lt_succ_of_lt (length_lt_of_skipEscape _h)
  · exact Nat.lt_succ_self _

theorem length_lt_of_skipString {cs rest : List Char}
    (h : skipString cs = .ok rest) : rest.length < cs.length := by
  fun_induction skipString cs with
  | case1 => cases h
  | case2 => cases h; exact Nat.lt_succ_self _
  | case3 => cases h
  | case4 _ _ he _ ih =>
    exact Nat.lt_trans (ih h) (Nat.lt_succ_of_lt (length_lt_of_skipEscape he))
  | case5 => cases h
  | case6 _ _ _ _ _ ih => exact Nat.lt_succ_of_lt (ih h)

end UmlSkeleton.Json

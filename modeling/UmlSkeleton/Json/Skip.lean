import UmlSkeleton.Json.Numeral
import UmlSkeleton.Json.StringLiteral

/-!
# Values that nobody asked for

An object may have members that its reader does not know. Their values are passed over: checked
for their syntax, but not for what they say. The brackets still open are kept in a list, so a
value may be nested as deeply as it likes.
-/

namespace UmlSkeleton.Json

/-- A container that has been opened. -/
inductive Bracket where
  | list
  | object
  deriving DecidableEq, Repr

/-- Pass over a value that is no container, its first character being `c`. -/
def skipScalar (c : Char) (rest : List Char) : Except Fault (List Char) :=
  if c = 'n' then readLetters ['u', 'l', 'l'] rest
  else if c = 't' then readLetters ['r', 'u', 'e'] rest
  else if c = 'f' then readLetters ['a', 'l', 's', 'e'] rest
  else if c = '"' then skipString rest
  else if startsNumber c then skipNumber (c :: rest)
  else .error (.next .noValue (c :: rest))

theorem length_le_of_skipScalar {c : Char} {cs rest : List Char}
    (h : skipScalar c cs = .ok rest) : rest.length ≤ cs.length := by
  unfold skipScalar at h
  split at h
  · exact length_le_of_readLetters h
  · split at h
    · exact length_le_of_readLetters h
    · split at h
      · exact length_le_of_readLetters h
      · split at h
        · exact Nat.le_of_lt (length_lt_of_skipString h)
        · split at h
          · exact Nat.le_of_lt_succ (length_lt_of_skipNumber h)
          · cases h

/-- The colon between a key and its value. -/
def readColon (cs : List Char) : Except Fault (List Char) :=
  match skipSpace cs with
  | [] => .error (.next .unfinishedObject [])
  | c :: rest => if c = ':' then .ok rest else .error (.next .noColon (c :: rest))

theorem length_lt_of_readColon {cs rest : List Char} (h : readColon cs = .ok rest) :
    rest.length < cs.length := by
  unfold readColon at h
  split at h
  · cases h
  · next hs =>
    split at h
    · cases h; exact length_lt_of_skipSpace hs
    · cases h

/-- A key that is not looked at, from its quote on, and the colon after it. -/
def skipKey (cs : List Char) : Except Fault (List Char) :=
  match skipSpace cs with
  | [] => .error (.next .unfinishedObject [])
  | c :: rest =>
    if c = '"' then
      match skipString rest with
      | .error fault => .error fault
      | .ok rest => readColon rest
    else .error (.next .keyNotText (c :: rest))

theorem length_lt_of_skipKey {cs rest : List Char} (h : skipKey cs = .ok rest) :
    rest.length < cs.length := by
  unfold skipKey at h
  split at h
  · cases h
  · next hs =>
    have := length_lt_of_skipSpace hs
    split at h
    · split at h
      · cases h
      · next hk =>
        have := length_lt_of_skipString hk
        have := length_lt_of_readColon h
        omega
    · cases h

mutual

/-- Pass over a value and over what is left of the containers in `opened`. -/
def skipNested (opened : List Bracket) (cs : List Char) : Except Fault (List Char) :=
  match _h : skipSpace cs with
  | [] => .error (.next .unfinishedValue [])
  | c :: rest =>
    if c = '[' then
      match _hr : skipSpace rest with
      | [] => .error (.next .unfinishedList [])
      | d :: more => if d = ']' then skipAfter opened more else skipNested (.list :: opened) rest
    else if c = '\x7b' then
      match _hr : skipSpace rest with
      | [] => .error (.next .unfinishedObject [])
      | d :: more =>
        if d = '\x7d' then skipAfter opened more
        else
          match _hk : skipKey rest with
          | .error fault => .error fault
          | .ok rest => skipNested (.object :: opened) rest
    else
      match _hs : skipScalar c rest with
      | .error fault => .error fault
      | .ok rest => skipAfter opened rest
termination_by cs.length
decreasing_by
  · exact Nat.lt_trans (length_lt_of_skipSpace _hr) (length_lt_of_skipSpace _h)
  · exact length_lt_of_skipSpace _h
  · exact Nat.lt_trans (length_lt_of_skipSpace _hr) (length_lt_of_skipSpace _h)
  · exact Nat.lt_trans (length_lt_of_skipKey _hk) (length_lt_of_skipSpace _h)
  · exact Nat.lt_of_le_of_lt (length_le_of_skipScalar _hs) (length_lt_of_skipSpace _h)

/-- Pass over what is left of the containers in `opened`, the innermost first, after a value. -/
def skipAfter (opened : List Bracket) (cs : List Char) : Except Fault (List Char) :=
  match opened with
  | [] => .ok cs
  | .list :: outer =>
    match _h : skipSpace cs with
    | [] => .error (.next .unfinishedList [])
    | c :: rest =>
      if c = ',' then skipNested (.list :: outer) rest
      else if c = ']' then skipAfter outer rest
      else .error (.next .noListComma (c :: rest))
  | .object :: outer =>
    match _h : skipSpace cs with
    | [] => .error (.next .unfinishedObject [])
    | c :: rest =>
      if c = ',' then
        match _hk : skipKey rest with
        | .error fault => .error fault
        | .ok rest => skipNested (.object :: outer) rest
      else if c = '\x7d' then skipAfter outer rest
      else .error (.next .noObjectComma (c :: rest))
termination_by cs.length
decreasing_by
  · exact length_lt_of_skipSpace _h
  · exact length_lt_of_skipSpace _h
  · exact Nat.lt_trans (length_lt_of_skipKey _hk) (length_lt_of_skipSpace _h)
  · exact length_lt_of_skipSpace _h

end

/-- Pass over one value. -/
def skipValue (cs : List Char) : Except Fault (List Char) := skipNested [] cs

/-! ### Passing over a value takes up some input -/

mutual

theorem length_lt_of_skipNested {opened : List Bracket} {cs rest : List Char}
    (h : skipNested opened cs = .ok rest) : rest.length < cs.length := by
  unfold skipNested at h
  split at h
  · cases h
  · next hs =>
    have hlt := length_lt_of_skipSpace hs
    split at h
    · split at h
      · cases h
      · next hr =>
        have hmore := length_lt_of_skipSpace hr
        split at h
        · have := length_le_of_skipAfter h
          omega
        · have := length_lt_of_skipNested h
          omega
    · split at h
      · split at h
        · cases h
        · next hr =>
          have hmore := length_lt_of_skipSpace hr
          split at h
          · have := length_le_of_skipAfter h
            omega
          · split at h
            · cases h
            · next hk =>
              have hkey := length_lt_of_skipKey hk
              have := length_lt_of_skipNested h
              omega
      · split at h
        · cases h
        · next hsc =>
          have hscalar := length_le_of_skipScalar hsc
          have := length_le_of_skipAfter h
          omega
termination_by cs.length

theorem length_le_of_skipAfter {opened : List Bracket} {cs rest : List Char}
    (h : skipAfter opened cs = .ok rest) : rest.length ≤ cs.length := by
  match opened with
  | [] =>
    rw [skipAfter] at h
    cases h
    exact Nat.le_refl _
  | .list :: outer =>
    rw [skipAfter] at h
    split at h
    · cases h
    · next hs =>
      have hlt := length_lt_of_skipSpace hs
      split at h
      · have := length_lt_of_skipNested h
        omega
      · split at h
        · have := length_le_of_skipAfter h
          omega
        · cases h
  | .object :: outer =>
    rw [skipAfter] at h
    split at h
    · cases h
    · next hs =>
      have hlt := length_lt_of_skipSpace hs
      split at h
      · split at h
        · cases h
        · next hk =>
          have hkey := length_lt_of_skipKey hk
          have := length_lt_of_skipNested h
          omega
      · split at h
        · have := length_le_of_skipAfter h
          omega
        · cases h
termination_by cs.length

end

theorem length_lt_of_skipValue {cs rest : List Char} (h : skipValue cs = .ok rest) :
    rest.length < cs.length :=
  length_lt_of_skipNested h

end UmlSkeleton.Json

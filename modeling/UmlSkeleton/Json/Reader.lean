import UmlSkeleton.Json.Shape
import UmlSkeleton.Json.Skip

/-!
# Reading a document by its shape

A `Reader` takes a value from the front of its input and leaves what follows, which is always
shorter. `Shape.reader` puts readers together along a shape: a record is read from an object, whose
members may come in any order and may have unknown neighbours, or from a list of its fields in the
order in which they are declared.

Some faults are noticed only when a container is left (a missing field, say). They are blamed on
the place after the white space that follows, and after the closing bracket if one comes next.
-/

namespace UmlSkeleton.Json

/-- A way to take a value from the front of the input. -/
structure Reader (α : Type) where
  run : List Char → Except Fault (α × List Char)
  shorter : ∀ {cs rest : List Char} {a : α}, run cs = .ok (a, rest) → rest.length < cs.length

/-! ### Values of the wrong type -/

/-- The fault of a value that is not what was expected. A scalar is read to its end first, and a
fault inside it comes first. -/
def mismatch (expected : String) (cs : List Char) : Fault :=
  match cs with
  | [] => .next .unfinishedValue []
  | c :: rest =>
    if c = 'n' then word .null ['u', 'l', 'l'] rest
    else if c = 't' then word (.boolean true) ['r', 'u', 'e'] rest
    else if c = 'f' then word (.boolean false) ['a', 'l', 's', 'e'] rest
    else if c = '"' then
      match readString rest with
      | .error fault => fault
      | .ok (s, rest) => .here (.wrongType (.text s) expected) rest
    else if startsNumber c then
      match readNumber (c :: rest) with
      | .error fault => fault
      | .ok (.integer value, rest) => .here (.wrongType (.integer value) expected) rest
      | .ok (.floating value, rest) => .here (.wrongType (.floating value) expected) rest
    else if c = '[' then .here (.wrongType .sequence expected) (c :: rest)
    else if c = '\x7b' then .here (.wrongType .map expected) (c :: rest)
    else .next .noValue (c :: rest)
where
  word (found : Found) (letters rest : List Char) : Fault :=
    match readLetters letters rest with
    | .error fault => fault
    | .ok rest => .here (.wrongType found expected) rest

/-! ### Scalars -/

/-- An integer of 64 bits. -/
def readInteger (cs : List Char) : Except Fault (Int64 × List Char) :=
  match skipSpace cs with
  | [] => .error (.next .unfinishedValue [])
  | c :: rest =>
    if startsNumber c then
      match readNumber (c :: rest) with
      | .error fault => .error fault
      | .ok (.integer value, rest) =>
        if value ≤ Int64.maxValue.toInt then .ok (.ofInt value, rest)
        else .error (.here (.outOfRange value "i64") rest)
      | .ok (.floating value, rest) => .error (.here (.wrongType (.floating value) "i64") rest)
    else .error (mismatch "i64" (c :: rest))

theorem length_lt_of_readInteger {cs rest : List Char} {n : Int64}
    (h : readInteger cs = .ok (n, rest)) : rest.length < cs.length := by
  unfold readInteger at h
  split at h
  · cases h
  · next c more hs =>
    have := length_lt_of_skipSpace hs
    split at h
    · split at h
      · cases h
      · next hn =>
        have := length_lt_of_readNumber hn
        split at h
        · obtain ⟨-, rfl⟩ := Prod.mk.inj (Except.ok.inj h)
          simp only [List.length_cons] at *
          omega
        · cases h
      · cases h
    · cases h

/-- A string. -/
def readText (cs : List Char) : Except Fault (String × List Char) :=
  match skipSpace cs with
  | [] => .error (.next .unfinishedValue [])
  | c :: rest => if c = '"' then readString rest else .error (mismatch "a string" (c :: rest))

theorem length_lt_of_readText {cs rest : List Char} {s : String}
    (h : readText cs = .ok (s, rest)) : rest.length < cs.length := by
  unfold readText at h
  split at h
  · cases h
  · next hs =>
    have := length_lt_of_skipSpace hs
    split at h
    · have := length_lt_of_readString h
      omega
    · cases h

/-- A string, or `null`. -/
def readOptionalText (cs : List Char) : Except Fault (Option String × List Char) :=
  match skipSpace cs with
  | [] => .error (.next .unfinishedValue [])
  | c :: rest =>
    if c = 'n' then
      match readLetters ['u', 'l', 'l'] rest with
      | .error fault => .error fault
      | .ok rest => .ok (none, rest)
    else
      match readText (c :: rest) with
      | .error fault => .error fault
      | .ok (s, rest) => .ok (some s, rest)

theorem length_lt_of_readOptionalText {cs rest : List Char} {s : Option String}
    (h : readOptionalText cs = .ok (s, rest)) : rest.length < cs.length := by
  unfold readOptionalText at h
  split at h
  · cases h
  · next hs =>
    have := length_lt_of_skipSpace hs
    split at h
    · split at h
      · cases h
      · next hl =>
        have := length_le_of_readLetters hl
        cases h
        omega
    · split at h
      · cases h
      · next ht =>
        have := length_lt_of_readText ht
        cases h
        simp only [List.length_cons] at *
        omega

/-! ### Lists -/

/-- What comes next inside a container: the place where an item or a key begins, or the closing
bracket. -/
inductive Ahead where
  | entry (cs : List Char)
  | close (cs : List Char)

/-- What comes next in a list, which is not closed yet. The place of the closing bracket is the
bracket itself. -/
def nextItem (first : Bool) (cs : List Char) : Except Fault Ahead :=
  match skipSpace cs with
  | [] => .error (.next .unfinishedList [])
  | c :: rest =>
    if c = ']' then .ok (.close (c :: rest))
    else if first then .ok (.entry (c :: rest))
    else if c = ',' then
      match skipSpace rest with
      | [] => .error (.next .unfinishedValue [])
      | d :: more =>
        if d = ']' then .error (.next .trailingComma (d :: more)) else .ok (.entry (d :: more))
    else .error (.next .noListComma (c :: rest))

theorem length_le_of_nextItem {first : Bool} {cs rest : List Char}
    (h : nextItem first cs = .ok (.entry rest) ∨ nextItem first cs = .ok (.close rest)) :
    rest.length ≤ cs.length := by
  unfold nextItem at h
  have := length_skipSpace_le cs
  split at h
  · simp at h
  · next c more hs =>
    rw [hs] at this
    split at h
    · simp only [reduceCtorEq, Except.ok.injEq, Ahead.close.injEq, false_or] at h
      subst h
      exact this
    · split at h
      · simp only [reduceCtorEq, Except.ok.injEq, Ahead.entry.injEq, or_false] at h
        subst h
        exact this
      · split at h
        · have hm := length_skipSpace_le more
          split at h
          · simp at h
          · next hd =>
            rw [hd] at hm
            split at h
            · simp at h
            · simp only [reduceCtorEq, Except.ok.injEq, Ahead.entry.injEq, or_false] at h
              subst h
              simp only [List.length_cons] at *
              omega
        · simp at h

/-- The items of a list up to its closing bracket, those before being `read`, the last one
first. -/
def readItems (item : Reader α) (first : Bool) (read : List α) (cs : List Char) :
    Except Fault (List α × List Char) :=
  match _hn : nextItem first cs with
  | .error fault => .error fault
  | .ok (.close rest) => .ok (read.reverse, rest.tail)
  | .ok (.entry rest) =>
    match _hr : item.run rest with
    | .error fault => .error fault
    | .ok (a, rest) => readItems item false (a :: read) rest
termination_by cs.length
decreasing_by
  exact Nat.lt_of_lt_of_le (item.shorter _hr) (length_le_of_nextItem (.inl _hn))

theorem length_le_of_readItems {item : Reader α} {first : Bool} {read items : List α}
    {cs rest : List Char} (h : readItems item first read cs = .ok (items, rest)) :
    rest.length ≤ cs.length := by
  fun_induction readItems item first read cs with
  | case1 => cases h
  | case2 _ _ _ _ hn =>
    have := length_le_of_nextItem (.inr hn)
    cases h
    rw [List.length_tail]
    omega
  | case3 => cases h
  | case4 _ _ _ _ hn _ _ hr ih =>
    have := length_le_of_nextItem (.inl hn)
    have := item.shorter hr
    have := ih h
    omega

/-- A list. -/
def readList (item : Reader α) (cs : List Char) : Except Fault (List α × List Char) :=
  match skipSpace cs with
  | [] => .error (.next .unfinishedValue [])
  | c :: rest =>
    if c = '[' then readItems item true [] rest else .error (mismatch "a sequence" (c :: rest))

theorem length_lt_of_readList {item : Reader α} {items : List α} {cs rest : List Char}
    (h : readList item cs = .ok (items, rest)) : rest.length < cs.length := by
  unfold readList at h
  split at h
  · cases h
  · next hs =>
    have := length_lt_of_skipSpace hs
    split at h
    · have := length_le_of_readItems h
      omega
    · cases h

end UmlSkeleton.Json

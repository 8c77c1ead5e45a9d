import UmlSkeleton.Json.Reader

/-!
# Reading records, and whole documents

A record is read from an object or from a list. From an object, each known member fills the slot of
its field, once; an unknown member is passed over; at the end the fields not found must have an
empty value. From a list, the fields are read in the order of their declaration, and those that
have an empty value may be left out at the end.
-/

namespace UmlSkeleton.Json

/-! ### From an object -/

/-- What comes next in an object, which is not closed yet: a key after its opening quote, or the
closing brace itself. -/
def nextKey (first : Bool) (cs : List Char) : Except Fault Ahead :=
  match skipSpace cs with
  | [] => .error (.next .unfinishedObject [])
  | c :: rest =>
    if c = '\x7d' then .ok (.close (c :: rest))
    else if first then
      if c = '"' then .ok (.entry rest) else .error (.next .keyNotText (c :: rest))
    else if c = ',' then
      match skipSpace rest with
      | [] => .error (.next .unfinishedValue [])
      | d :: more =>
        if d = '"' then .ok (.entry more)
        else if d = '\x7d' then .error (.next .trailingComma (d :: more))
        else .error (.next .keyNotText (d :: more))
    else .error (.next .noObjectComma (c :: rest))

theorem length_le_of_nextKey {first : Bool} {cs rest : List Char}
    (h : nextKey first cs = .ok (.entry rest) ∨ nextKey first cs = .ok (.close rest)) :
    rest.length ≤ cs.length := by
  unfold nextKey at h
  have := length_skipSpace_le cs
  split at h
  · simp at h
  · next c more hs =>
    rw [hs] at this
    split at h
    · simp only [reduceCtorEq, Except.ok.injEq, Ahead.close.injEq, false_or] at h
      subst h
      exact this
    · split at h
      · split at h
        · simp only [reduceCtorEq, Except.ok.injEq, Ahead.entry.injEq, or_false] at h
          subst h
          simp only [List.length_cons] at this
          omega
        · simp at h
      · split at h
        · have hm := length_skipSpace_le more
          split at h
          · simp at h
          · next hd =>
            rw [hd] at hm
            split at h
            · simp only [reduceCtorEq, Except.ok.injEq, Ahead.entry.injEq, or_false] at h
              subst h
              simp only [List.length_cons] at *
              omega
            · split at h <;> simp at h
        · simp at h

/-- A way to take the value of a member, whose key is known, and to note it. -/
structure MemberReader (σ : Type) where
  run : String → σ → List Char → Except Fault (σ × List Char)
  shorter : ∀ {key : String} {s t : σ} {cs rest : List Char},
    run key s cs = .ok (t, rest) → rest.length < cs.length

namespace MemberReader

/-- No key is known: the value is passed over. -/
def unknown : MemberReader Unit where
  run _ _ cs :=
    match readColon cs with
    | .error fault => .error fault
    | .ok rest =>
      match skipValue rest with
      | .error fault => .error fault
      | .ok rest => .ok ((), rest)
  shorter h := by
    split at h
    · cases h
    · next hc =>
      have := length_lt_of_readColon hc
      split at h
      · cases h
      · next hv =>
        have := length_lt_of_skipValue hv
        cases h
        omega

/-- The input after an object's closing brace, if that comes next. -/
def leaveObject (cs : List Char) : List Char :=
  match skipSpace cs with
  | [] => []
  | c :: rest => if c = '\x7d' then rest else c :: rest

/-- One more key is known. Its slot must be free. -/
def field (name : String) (value : Reader α) (others : MemberReader σ) :
    MemberReader (Option α × σ) where
  run key slots cs :=
    if key = name then
      match slots.1 with
      | some _ => .error (.here (.duplicateField name) (leaveObject cs))
      | none =>
        match readColon cs with
        | .error fault => .error fault
        | .ok rest =>
          match value.run rest with
          | .error fault => .error fault
          | .ok (a, rest) => .ok ((some a, slots.2), rest)
    else
      match others.run key slots.2 cs with
      | .error fault => .error fault
      | .ok (more, rest) => .ok ((slots.1, more), rest)
  shorter h := by
    split at h
    · split at h
      · cases h
      · split at h
        · cases h
        · next hc =>
          have := length_lt_of_readColon hc
          split at h
          · cases h
          · next hv =>
            have := value.shorter hv
            cases h
            omega
    · split at h
      · cases h
      · next ho =>
        have := others.shorter ho
        cases h
        exact this

end MemberReader

/-- The members of an object up to its closing brace. -/
def readMembers (member : MemberReader σ) (first : Bool) (slots : σ) (cs : List Char) :
    Except Fault (σ × List Char) :=
  match _hn : nextKey first cs with
  | .error fault => .error fault
  | .ok (.close rest) => .ok (slots, rest.tail)
  | .ok (.entry rest) =>
    match _hk : readString rest with
    | .error fault => .error fault
    | .ok (key, rest) =>
      match _hm : member.run key slots rest with
      | .error fault => .error fault
      | .ok (slots, rest) => readMembers member false slots rest
termination_by cs.length
decreasing_by
  have := length_le_of_nextKey (.inl _hn)
  have := length_lt_of_readString _hk
  have := member.shorter _hm
  omega

theorem length_le_of_readMembers {member : MemberReader σ} {first : Bool} {slots found : σ}
    {cs rest : List Char} (h : readMembers member first slots cs = .ok (found, rest)) :
    rest.length ≤ cs.length := by
  fun_induction readMembers member first slots cs with
  | case1 => cases h
  | case2 _ _ _ _ hn =>
    have := length_le_of_nextKey (.inr hn)
    cases h
    rw [List.length_tail]
    omega
  | case3 => cases h
  | case4 => cases h
  | case5 _ _ _ _ hn _ _ hk _ _ hm ih =>
    have := length_le_of_nextKey (.inl hn)
    have := length_lt_of_readString hk
    have := member.shorter hm
    have := ih h
    omega

/-! ### From a list -/

/-- A way to read the fields of a record from a list, beginning with the one at `index`. -/
structure FieldsReader (β : Type) where
  run : (index : Nat) → (first : Bool) → List Char → Except Fault (β × List Char)
  notLonger : ∀ {index : Nat} {first : Bool} {cs rest : List Char} {b : β},
    run index first cs = .ok (b, rest) → rest.length ≤ cs.length

namespace FieldsReader

/-- No field is left: the list must end here. -/
def done : FieldsReader Unit where
  run _ _ cs :=
    match skipSpace cs with
    | [] => .error (.next .unfinishedList [])
    | c :: rest =>
      if c = ']' then .ok ((), rest)
      else if c = ',' then
        match skipSpace rest with
        | [] => .error (.next .trailingCharacters [])
        | d :: more =>
          if d = ']' then .error (.next .trailingComma (d :: more))
          else .error (.next .trailingCharacters (d :: more))
      else .error (.next .trailingCharacters (c :: rest))
  notLonger h := by
    split at h
    · cases h
    · next hs =>
      have := length_lt_of_skipSpace hs
      split at h
      · cases h
        exact Nat.le_of_lt this
      · split at h
        · split at h
          · cases h
          · split at h <;> cases h
        · cases h

/-- One field, then the others. `empty` stands for the field if the list ends before it; without
it the list is too short for what is `expected`. -/
def field (expected : String) (empty : Option α) (value : Reader α) (others : FieldsReader β) :
    FieldsReader (α × β) where
  run index first cs :=
    match nextItem first cs with
    | .error fault => .error fault
    | .ok (.close bracket) =>
      match empty with
      | none => .error (.here (.tooShort index expected) bracket.tail)
      | some a =>
        match others.run (index + 1) first bracket with
        | .error fault => .error fault
        | .ok (b, rest) => .ok ((a, b), rest)
    | .ok (.entry rest) =>
      match value.run rest with
      | .error fault => .error fault
      | .ok (a, rest) =>
        match others.run (index + 1) false rest with
        | .error fault => .error fault
        | .ok (b, rest) => .ok ((a, b), rest)
  notLonger h := by
    split at h
    · cases h
    · next hn =>
      have := length_le_of_nextItem (.inr hn)
      split at h
      · cases h
      · split at h
        · cases h
        · next ho =>
          have := others.notLonger ho
          cases h
          omega
    · next hn =>
      have := length_le_of_nextItem (.inl hn)
      split at h
      · cases h
      · next hv =>
        have := value.shorter hv
        split at h
        · cases h
        · next ho =>
          have := others.notLonger ho
          cases h
          omega

end FieldsReader

/-! ### Records and all other shapes -/

/-- A record, from an object or a list. -/
def readRecord (name : String) (fields : Fields) (member : MemberReader fields.Slots)
    (listed : FieldsReader fields.Values) (cs : List Char) :
    Except Fault (fields.Values × List Char) :=
  match skipSpace cs with
  | [] => .error (.next .unfinishedValue [])
  | c :: rest =>
    if c = '\x7b' then
      match readMembers member true fields.vacant rest with
      | .error fault => .error fault
      | .ok (slots, rest) =>
        match fields.complete slots with
        | .error missing => .error (.here (.missingField missing) rest)
        | .ok values => .ok (values, rest)
    else if c = '[' then listed.run 0 true rest
    else .error (mismatch ("struct " ++ name) (c :: rest))

theorem length_lt_of_readRecord {name : String} {fields : Fields}
    {member : MemberReader fields.Slots} {listed : FieldsReader fields.Values}
    {cs rest : List Char} {values : fields.Values}
    (h : readRecord name fields member listed cs = .ok (values, rest)) :
    rest.length < cs.length := by
  unfold readRecord at h
  split at h
  · cases h
  · next hs =>
    have := length_lt_of_skipSpace hs
    split at h
    · split at h
      · cases h
      · next hm =>
        have := length_le_of_readMembers hm
        split at h
        · cases h
        · cases h
          omega
    · split at h
      · have := listed.notLonger h
        omega
      · cases h

mutual

/-- The reader of a shape. -/
def Shape.reader : (shape : Shape) → Reader shape.Value
  | .integer => ⟨readInteger, length_lt_of_readInteger⟩
  | .text => ⟨readText, length_lt_of_readText⟩
  | .optionalText => ⟨readOptionalText, length_lt_of_readOptionalText⟩
  | .list item => ⟨readList item.reader, length_lt_of_readList⟩
  | .record name fields =>
    let expected := "struct " ++ name ++ " with " ++ toString fields.count ++ " elements"
    ⟨readRecord name fields fields.memberReader (fields.listReader expected),
      length_lt_of_readRecord⟩

/-- The reader of a record's members, by their keys. -/
def Fields.memberReader : (fields : Fields) → MemberReader fields.Slots
  | .nil => .unknown
  | .cons name shape rest => .field name shape.reader rest.memberReader

/-- The reader of a record's fields from a list, by their order. -/
def Fields.listReader (expected : String) : (fields : Fields) → FieldsReader fields.Values
  | .nil => .done
  | .cons _ shape rest => .field expected shape.empty? shape.reader (rest.listReader expected)

end

/-! ### Documents -/

/-- Read a whole text, which holds one value and white space around it. -/
def Reader.document (reader : Reader α) (text : String) : Except DecodeError α :=
  let cs := text.toList
  let blame (fault : Fault) : DecodeError := ⟨fault.cause, fault.position cs⟩
  match reader.run cs with
  | .error fault => .error (blame fault)
  | .ok (a, rest) =>
    match skipSpace rest with
    | [] => .ok a
    | c :: more => .error (blame (.next .trailingCharacters (c :: more)))

end UmlSkeleton.Json

import UmlSkeleton.Json.Record
import UmlSkeleton.Target.Basic

/-!
# Targets in documents

A document names a target by a string, in exactly its own spelling, or by an object with the name
as its only key and `null` as the value.
-/

namespace UmlSkeleton.Target

open Json

/-- The target with the name just read, which ends where `rest` begins. -/
def ofName (s : String) (rest : List Char) : Except Fault (Target × List Char) :=
  match named? s with
  | some target => .ok (target, rest)
  | none => .error (.here (.unknownVariant s (all.map name)) rest)

/-- The value `null`. -/
def readNull (cs : List Char) : Except Fault (List Char) :=
  match skipSpace cs with
  | [] => .error (.next .unfinishedValue [])
  | c :: rest =>
    if c = 'n' then readLetters ['u', 'l', 'l'] rest else .error (mismatch "unit" (c :: rest))

/-- The brace after the only member. -/
def readBrace (cs : List Char) : Except Fault (List Char) :=
  match skipSpace cs with
  | [] => .error (.here .unfinishedObject [])
  | c :: rest => if c = '\x7d' then .ok rest else .error (.here .noValue (c :: rest))

/-- The only member of an object, and the brace after it. -/
def readMember (cs : List Char) : Except Fault (Target × List Char) :=
  match skipSpace cs with
  | [] => .error (.next .unfinishedObject [])
  | c :: rest =>
    if c = '"' then do
      let (s, rest) ← readString rest
      let (target, rest) ← ofName s rest
      let rest ← readColon rest
      let rest ← readNull rest
      let rest ← readBrace rest
      return (target, rest)
    else if c = '\x7d' then .error (.next .noValue (c :: rest))
    else .error (.next .keyNotText (c :: rest))

/-- A target, by a string or by an object. -/
def read (cs : List Char) : Except Fault (Target × List Char) :=
  match skipSpace cs with
  | [] => .error (.next .unfinishedValue [])
  | c :: rest =>
    if c = '"' then do
      let (s, rest) ← readString rest
      ofName s rest
    else if c = '\x7b' then readMember rest
    else .error (.next .noValue (c :: rest))

/-! ### Reading a target takes up some input -/

theorem rest_of_ofName {s : String} {cs rest : List Char} {t : Target}
    (h : ofName s cs = .ok (t, rest)) : rest = cs := by
  unfold ofName at h
  split at h <;> cases h
  rfl

theorem length_lt_of_readNull {cs rest : List Char} (h : readNull cs = .ok rest) :
    rest.length < cs.length := by
  unfold readNull at h
  split at h
  · cases h
  · next hs =>
    have := length_lt_of_skipSpace hs
    split at h
    · have := length_le_of_readLetters h
      omega
    · cases h

theorem length_lt_of_readBrace {cs rest : List Char} (h : readBrace cs = .ok rest) :
    rest.length < cs.length := by
  unfold readBrace at h
  split at h
  · cases h
  · next hs =>
    split at h
    · cases h; exact length_lt_of_skipSpace hs
    · cases h

theorem length_lt_of_readMember {cs rest : List Char} {t : Target}
    (h : readMember cs = .ok (t, rest)) : rest.length < cs.length := by
  unfold readMember at h
  split at h
  · cases h
  · next more hs =>
    have := length_lt_of_skipSpace hs
    split at h
    · obtain ⟨⟨s, afterKey⟩, hk, h⟩ := exists_of_bind_eq_ok h
      obtain ⟨⟨target, afterName⟩, hn, h⟩ := exists_of_bind_eq_ok h
      obtain ⟨afterColon, hc, h⟩ := exists_of_bind_eq_ok h
      obtain ⟨afterNull, hv, h⟩ := exists_of_bind_eq_ok h
      obtain ⟨afterBrace, hb, h⟩ := exists_of_bind_eq_ok h
      cases h
      have := length_lt_of_readString hk
      have := rest_of_ofName hn
      have := length_lt_of_readColon hc
      have := length_lt_of_readNull hv
      have := length_lt_of_readBrace hb
      subst afterName
      omega
    · split at h <;> cases h

theorem length_lt_of_read {cs rest : List Char} {t : Target} (h : read cs = .ok (t, rest)) :
    rest.length < cs.length := by
  unfold read at h
  split at h
  · cases h
  · next more hs =>
    have := length_lt_of_skipSpace hs
    split at h
    · obtain ⟨⟨s, afterKey⟩, hk, h⟩ := exists_of_bind_eq_ok h
      have := length_lt_of_readString hk
      have := rest_of_ofName h
      subst rest
      omega
    · split at h
      · have := length_lt_of_readMember h
        omega
      · cases h

/-- The reader of targets. -/
def reader : Reader Target := ⟨read, length_lt_of_read⟩

end UmlSkeleton.Target

import UmlSkeleton.Json.Fault

/-!
# White space and fixed words

White space between the parts of a document is the space, the tabulator, the line feed and the
carriage return, nothing else. The fixed words are `null`, `true` and `false`, read letter by
letter after the first one.
-/

namespace UmlSkeleton.Json

/-! ### White space -/

def isSpace (c : Char) : Bool := c == ' ' || c == '\t' || c == '\n' || c == '\r'

/-- The input after any white space. -/
def skipSpace (cs : List Char) : List Char := cs.dropWhile isSpace

theorem length_dropWhile_le (p : Char → Bool) (cs : List Char) :
    (cs.dropWhile p).length ≤ cs.length := by
  have parts := congrArg List.length (List.takeWhile_append_dropWhile (p := p) (l := cs))
  rw [List.length_append] at parts
  exact parts ▸ Nat.le_add_left ..

theorem length_skipSpace_le (cs : List Char) : (skipSpace cs).length ≤ cs.length :=
  length_dropWhile_le isSpace cs

/-- What remains after the first character that is not white space is shorter. -/
theorem length_lt_of_skipSpace {cs rest : List Char} {c : Char} (h : skipSpace cs = c :: rest) :
    rest.length < cs.length := by
  have := length_skipSpace_le cs
  rw [h] at this
  exact this

/-! ### Fixed words -/

/-- The input after the remaining letters of a fixed word. -/
def readLetters : List Char → List Char → Except Fault (List Char)
  | [], cs => .ok cs
  | _ :: _, [] => .error (.here .unfinishedValue [])
  | letter :: letters, c :: cs =>
    if c = letter then readLetters letters cs else .error (.next .brokenLiteral (c :: cs))

theorem eq_append_of_readLetters {letters cs rest : List Char}
    (h : readLetters letters cs = .ok rest) : cs = letters ++ rest := by
  induction letters generalizing cs with
  | nil => exact Except.ok.inj h
  | cons letter letters ih =>
    match cs with
    | [] => cases h
    | c :: cs =>
      by_cases hc : c = letter
      · subst hc
        rw [readLetters, if_pos rfl] at h
        rw [ih h, List.cons_append]
      · rw [readLetters, if_neg hc] at h
        cases h

theorem length_le_of_readLetters {letters cs rest : List Char}
    (h : readLetters letters cs = .ok rest) : rest.length ≤ cs.length := by
  rw [eq_append_of_readLetters h, List.length_append]
  exact Nat.le_add_left ..

end UmlSkeleton.Json

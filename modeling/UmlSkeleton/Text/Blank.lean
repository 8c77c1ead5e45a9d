/-!
# Blank characters

A character is *blank* when Unicode gives it the property `White_Space`: twenty-five characters,
among them the no-break space and the ideographic space, but not the zero-width space. `trim`
removes the blanks at both ends of a text and leaves those between.
-/

namespace UmlSkeleton.Text

/-- The blank characters, as ranges of code points with both ends included. -/
def blankRanges : List (Nat × Nat) :=
  [(0x09, 0x0D), (0x20, 0x20), (0x85, 0x85), (0xA0, 0xA0), (0x1680, 0x1680), (0x2000, 0x200A),
   (0x2028, 0x2029), (0x202F, 0x202F), (0x205F, 0x205F), (0x3000, 0x3000)]

/-- A character with the property `White_Space`. -/
def isBlank (c : Char) : Bool :=
  blankRanges.any fun (first, last) => first ≤ c.toNat && c.toNat ≤ last

/-- The characters without the blanks in front. -/
def trimStart (cs : List Char) : List Char := cs.dropWhile isBlank

/-- The characters without the blanks at the end. -/
def trimEnd (cs : List Char) : List Char := (trimStart cs.reverse).reverse

/-- The text without the blanks at its two ends. -/
def trim (s : String) : String := String.ofList (trimEnd (trimStart s.toList))

/-- Nothing but blanks. -/
def allBlank (s : String) : Bool := s.toList.all isBlank

/-! ### Trimming is finished when nothing is left -/

theorem trimStart_eq_nil_iff {cs : List Char} : trimStart cs = [] ↔ cs.all isBlank = true := by
  induction cs with
  | nil => simp [trimStart]
  | cons c rest ih =>
    by_cases h : isBlank c = true
    · rw [List.all_cons, h, Bool.true_and, ← ih, trimStart, trimStart, List.dropWhile_cons_of_pos h]
    · simp [trimStart, h]

theorem trimEnd_eq_nil_iff {cs : List Char} : trimEnd cs = [] ↔ cs.all isBlank = true := by
  simp [trimEnd, trimStart_eq_nil_iff]

theorem trim_eq_empty_iff {s : String} : trim s = "" ↔ allBlank s = true := by
  have key : trimEnd (trimStart s.toList) = [] ↔ s.toList.all isBlank = true := by
    rw [trimEnd_eq_nil_iff]
    constructor
    · intro h
      refine trimStart_eq_nil_iff.mp ?_
      match h' : trimStart s.toList with
      | [] => rfl
      | c :: rest =>
        have hc : isBlank c = false := by
          have := List.head?_dropWhile_not isBlank s.toList
          rw [show s.toList.dropWhile isBlank = c :: rest from h'] at this
          simpa using this
        rw [h'] at h
        simp [hc] at h
    · intro h
      rw [trimStart_eq_nil_iff.mpr h]
      rfl
  constructor
  · intro h
    refine key.mp ?_
    have := congrArg String.toList h
    simpa [trim] using this
  · intro h
    simp [trim, key.mpr h]

end UmlSkeleton.Text

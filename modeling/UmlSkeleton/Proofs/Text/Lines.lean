import UmlSkeleton.Proofs.Text.Without

/-!
# The lines of a text

A text is cut into lines at its line ends. What follows the last line end is a line only if it is not
empty, so a text that ends its last line has as many lines as line ends.

* `lines_join` — texts on a single line each, with a line end after each, are the lines of the whole.
* `length_lines_join_iff` — they are as many as the lines of the whole only if each is on a single line.
-/

namespace UmlSkeleton.Text

/-! ## Cutting at line ends -/

/-- The characters cut at their line ends. -/
def cutLines : List Char → List (List Char)
  | [] => []
  | c :: cs =>
    if c = '\n' then [] :: cutLines cs
    else
      match cutLines cs with
      | [] => [[c]]
      | line :: more => (c :: line) :: more

/-- The lines of a text, without their ends. -/
def lines (s : String) : List String := (cutLines s.toList).map String.ofList

example : lines "a\n\nb" = ["a", "", "b"] := by decide
example : lines "a\n" = ["a"] := by decide

theorem cutLines_append {l rest : List Char} (h : '\n' ∉ l) :
    cutLines (l ++ '\n' :: rest) = l :: cutLines rest := by
  induction l with
  | nil => simp [cutLines]
  | cons c l ih =>
      rw [List.mem_cons, not_or] at h
      rw [List.cons_append, cutLines, if_neg (Ne.symm h.1), ih h.2]

/-- Every line end ends a line. -/
theorem length_cutLines_append (l rest : List Char) :
    (cutLines (l ++ '\n' :: rest)).length = l.count '\n' + 1 + (cutLines rest).length := by
  induction l with
  | nil => simp [cutLines, Nat.add_comm]
  | cons c l ih =>
      rw [List.cons_append, cutLines]
      by_cases hc : c = '\n'
      · rw [if_pos hc, List.length_cons, ih, hc, List.count_cons_self]
        omega
      · rw [if_neg hc, List.count_cons_of_ne hc, ← ih]
        -- A line end is still to come, so there is a line for the character to go to.
        cases hcut : cutLines (l ++ '\n' :: rest) with
        | nil =>
            rw [hcut, List.length_nil] at ih
            omega
        | cons line more => rfl

/-! ## Texts on a single line -/

/-- The text has no line end. -/
def SingleLine (s : String) : Prop := '\n' ∉ s.toList

instance (s : String) : Decidable (SingleLine s) := inferInstanceAs (Decidable (¬ _))

@[simp] theorem singleLine_append {s t : String} :
    SingleLine (s ++ t) ↔ SingleLine s ∧ SingleLine t := by
  simp [SingleLine]

@[simp] theorem singleLine_join {texts : List String} :
    SingleLine (String.join texts) ↔ ∀ t ∈ texts, SingleLine t := by
  simp [SingleLine]

theorem without_isLineEnd_iff {s : String} : Without isLineEnd s ↔ SingleLine s := by
  simp only [Without, SingleLine, isLineEnd, decide_eq_false_iff_not]
  exact ⟨fun h hmem => h _ hmem rfl, fun h c hc heq => h (heq ▸ hc)⟩

theorem SingleLine.intercalate {s : String} {texts : List String} (hs : SingleLine s)
    (h : ∀ t ∈ texts, SingleLine t) : SingleLine (s.intercalate texts) := by
  simp only [← without_isLineEnd_iff] at *
  exact Without.intercalate hs h

theorem lines_append {s t : String} (hs : SingleLine s) : lines (s ++ "\n" ++ t) = s :: lines t := by
  have hchars : (s ++ "\n" ++ t).toList = s.toList ++ '\n' :: t.toList := by simp
  rw [lines, hchars, cutLines_append hs, List.map_cons, String.ofList_toList, lines]

theorem length_lines_append (s t : String) :
    (lines (s ++ "\n" ++ t)).length = s.toList.count '\n' + 1 + (lines t).length := by
  have hchars : (s ++ "\n" ++ t).toList = s.toList ++ '\n' :: t.toList := by simp
  rw [lines, List.length_map, hchars, length_cutLines_append, lines, List.length_map]

/-! ## Texts with a line end after each -/

theorem lines_join {texts : List String} (h : ∀ t ∈ texts, SingleLine t) :
    lines (String.join (texts.map (· ++ "\n"))) = texts := by
  induction texts with
  | nil => rfl
  | cons t texts ih =>
      rw [List.map_cons, String.join_cons, lines_append (h t (List.mem_cons_self ..)),
        ih fun u hu => h u (List.mem_cons_of_mem t hu)]

theorem length_le_length_lines_join (texts : List String) :
    texts.length ≤ (lines (String.join (texts.map (· ++ "\n")))).length := by
  induction texts with
  | nil => exact Nat.zero_le _
  | cons t texts ih =>
      rw [List.map_cons, String.join_cons, length_lines_append, List.length_cons]
      omega

/-- A line end inside one of the texts makes a line more. -/
theorem length_lines_join_iff {texts : List String} :
    (lines (String.join (texts.map (· ++ "\n")))).length = texts.length ↔
      ∀ t ∈ texts, SingleLine t := by
  induction texts with
  | nil => simp [lines, cutLines]
  | cons t texts ih =>
      have ht : t.toList.count '\n' = 0 ↔ SingleLine t := List.count_eq_zero
      have hle := length_le_length_lines_join texts
      rw [List.map_cons, String.join_cons, length_lines_append, List.length_cons,
        List.forall_mem_cons, ← ht, ← ih]
      omega

end UmlSkeleton.Text

import UmlSkeleton.Proofs.Layout
import UmlSkeleton.Proofs.Text.Lines

/-!
# Rows are lines

A row of a layout is a line of its text, as long as no line end hides in what the row says. The texts of
a layout come from its steps alone, so `EachText` takes a property of all of them apart along the ways in
which layouts are put together, and `forall_mem_rows` brings it to the rows.

* `lines_textOfRows` — the lines of the text of some rows are these rows, one for one.
-/

namespace UmlSkeleton

open Text

/-! ## The texts of a layout -/

/-- The text that a step writes, if it writes one of its own. -/
def Step.text? : Step → Option String
  | .line text => some text
  | .enter text => some text
  | .leave text => some text
  | _ => none

/-- Every text of the steps satisfies `p`. -/
def EachText (p : String → Prop) (steps : List Step) : Prop :=
  ∀ step ∈ steps, ∀ text ∈ step.text?, p text

variable {p : String → Prop} {steps body : List Step} {header : String}

@[simp] theorem eachText_nil : EachText p [] := by simp [EachText]

@[simp] theorem eachText_cons {step : Step} :
    EachText p (step :: steps) ↔ (∀ text ∈ step.text?, p text) ∧ EachText p steps := by
  simp [EachText]

theorem eachText_line_cons {text : String} :
    EachText p (.line text :: steps) ↔ p text ∧ EachText p steps := by
  simp [Step.text?]

@[simp] theorem eachText_append {xs ys : List Step} :
    EachText p (xs ++ ys) ↔ EachText p xs ∧ EachText p ys := by
  simp only [EachText, List.mem_append, or_imp, forall_and]

@[simp] theorem eachText_flatMap {items : List α} {f : α → List Step} :
    EachText p (items.flatMap f) ↔ ∀ a ∈ items, EachText p (f a) := List.forall_mem_flatMap

@[simp] theorem eachText_map_line {items : List α} {f : α → String} :
    EachText p (items.map fun a => .line (f a)) ↔ ∀ a ∈ items, p (f a) := by
  simp [EachText, Step.text?]

@[simp] theorem eachText_indented :
    EachText p (indented header body) ↔ p header ∧ EachText p body := by
  simp [indented, Step.text?]

@[simp] theorem eachText_braced :
    EachText p (braced header body) ↔ p (header ++ " \x7b") ∧ EachText p body ∧ p "\x7d" := by
  simp [braced, Step.text?]

@[simp] theorem eachText_spaced {blocks : List (List Step)} :
    EachText p (spaced blocks) ↔ ∀ b ∈ blocks, EachText p b := by
  simp [spaced, Step.text?]

theorem EachText.stepsIf {condition : Bool} (h : condition = true → EachText p steps) :
    EachText p (stepsIf condition steps) := by
  cases condition with
  | false => exact eachText_nil
  | true => exact h rfl

/-- A row says what a step says, or nothing. -/
theorem forall_mem_rows (hblank : p "") (h : EachText p steps) (m : Margin) :
    ∀ r ∈ rows m steps, p r.text := by
  induction steps generalizing m with
  | nil => intro r hr; cases hr
  | cons step steps ih =>
      intro r hr
      rw [eachText_cons] at h
      rw [rows, List.mem_append, Option.mem_toList] at hr
      rcases hr with hr | hr
      · cases step with
        | line text => cases hr; exact h.1 text rfl
        | enter text => cases hr; exact h.1 text rfl
        | leave text => cases hr; exact h.1 text rfl
        | blank => cases hr; exact hblank
        | gap =>
            rw [Step.row?] at hr
            split at hr
            · cases hr; exact hblank
            · cases hr
        | indent => cases hr
        | dedent => cases hr
      · exact ih h.2 _ r hr

/-! ## Rows as lines -/

/-- A row at this width of an indentation, without the end of its line. -/
def Row.line (width : Nat) (row : Row) : String :=
  if row.text = "" then "" else String.ofList (List.replicate (row.depth * width) ' ') ++ row.text

/-- A blank row has no spaces. -/
theorem Row.line_blank (width depth : Nat) : Row.line width ⟨depth, ""⟩ = "" := by
  rw [Row.line, if_pos rfl]

/-- At depth zero a row is its text. -/
@[simp] theorem Row.line_margin (width : Nat) (text : String) : Row.line width ⟨0, text⟩ = text := by
  unfold Row.line
  split
  · next h => exact h.symm
  · simp

theorem Row.line_of_ne (width depth : Nat) {text : String} (h : text ≠ "") :
    Row.line width ⟨depth, text⟩ = String.ofList (List.replicate (depth * width) ' ') ++ text := if_neg h

theorem Row.chars_eq (width : Nat) (row : Row) :
    row.chars width = (row.line width).toList ++ ['\n'] := by
  unfold Row.chars Row.line
  split
  · rfl
  · simp

/-- A row is a line with its end. -/
theorem textOfRows_singleton (width : Nat) (row : Row) :
    textOfRows width [row] = row.line width ++ "\n" := by
  rw [textOfRows, List.flatMap_singleton, Row.chars_eq, String.ofList_append, String.ofList_toList]

/-- Settled steps that end with the end of a block write its line last, at the depth at which they began. -/
theorem Settled.exists_textOfRows_leave {closing : String} (h : Settled (steps ++ [.leave closing]))
    (width : Nat) (m : Margin) :
    ∃ text, textOfRows width (rows m (steps ++ [.leave closing])) =
      text ++ (Row.line width ⟨m.depth, closing⟩ ++ "\n") := by
  have hdepth : (m.run steps).depth - 1 = m.depth := by
    have hrun := congrArg Margin.depth (h m)
    rwa [Margin.run_append] at hrun
  have hleave : rows (m.run steps) [.leave closing] = [⟨m.depth, closing⟩] := by
    rw [← hdepth]
    rfl
  refine ⟨textOfRows width (rows m steps), ?_⟩
  rw [rows_append, textOfRows_append, hleave, textOfRows_singleton]

theorem textOfRows_eq_join (width : Nat) (rs : List Row) :
    textOfRows width rs = String.join ((rs.map (·.line width)).map (· ++ "\n")) := by
  induction rs with
  | nil => rfl
  | cons r rs ih =>
      rw [List.map_cons, List.map_cons, String.join_cons, ← ih, ← textOfRows_singleton]
      exact textOfRows_append width [r] rs

/-- Blocks with a gap before each, where one is due, are their texts with a blank line before each. -/
theorem textOfRows_spaced {blocks : List (List Step)} {d : Nat}
    (h : ∀ b ∈ blocks, Margin.run ⟨d, false⟩ b = ⟨d, true⟩) (width : Nat) :
    textOfRows width (rows ⟨d, true⟩ (spaced blocks)) =
      String.join (blocks.map fun b => "\n" ++ textOfRows width (rows ⟨d, false⟩ b)) := by
  have hblank : textOfRows width [⟨d, ""⟩] = "\n" := by
    rw [textOfRows_singleton, Row.line_blank, String.empty_append]
  rw [rows_spaced h, textOfRows_flatMap]
  simp only [← hblank, ← textOfRows_append]
  rfl

theorem Row.singleLine_line {width : Nat} {row : Row} (h : SingleLine row.text) :
    SingleLine (row.line width) := by
  unfold Row.line
  split
  · simp [SingleLine]
  · rw [singleLine_append]
    exact ⟨by simp [SingleLine], h⟩

/-- The lines of the text of some rows are these rows. -/
theorem lines_textOfRows {rs : List Row} (h : ∀ r ∈ rs, SingleLine r.text) (width : Nat) :
    lines (textOfRows width rs) = rs.map (·.line width) := by
  rw [textOfRows_eq_join, lines_join]
  intro line hline
  obtain ⟨r, hr, rfl⟩ := List.mem_map.mp hline
  exact Row.singleLine_line (h r hr)

/-- The lines that some steps write. -/
def linesOf (width : Nat) (m : Margin) (steps : List Step) : List String :=
  (rows m steps).map (·.line width)

theorem linesOf_append (width : Nat) (m : Margin) (xs ys : List Step) :
    linesOf width m (xs ++ ys) = linesOf width m xs ++ linesOf width (m.run xs) ys := by
  rw [linesOf, rows_append, List.map_append, linesOf, linesOf]

theorem linesOf_indented (w d : Nat) (due : Bool) (header : String) (body : List Step) :
    linesOf w ⟨d, due⟩ (indented header body) =
      Row.line w ⟨d, header⟩ :: linesOf w ⟨d + 1, false⟩ body := by
  have hdedent (m : Margin) : linesOf w m [.dedent] = [] := rfl
  rw [indented, linesOf_append, hdedent, List.append_nil]
  rfl

theorem linesOf_braced (w d : Nat) (due : Bool) {header : String} {body : List Step}
    (hbody : Level body) : linesOf w ⟨d, due⟩ (braced header body) =
      Row.line w ⟨d, header ++ " \x7b"⟩ :: linesOf w ⟨d + 1, false⟩ body ++ [Row.line w ⟨d, "\x7d"⟩] := by
  have hdepth : (Margin.run ⟨d + 1, false⟩ body).depth - 1 = d := by rw [hbody]; rfl
  have hleave : linesOf w (Margin.run ⟨d + 1, false⟩ body) [.leave "\x7d"] = [Row.line w ⟨d, "\x7d"⟩] := by
    show [Row.line w ⟨(Margin.run ⟨d + 1, false⟩ body).depth - 1, "\x7d"⟩] = _
    rw [hdepth]
  rw [braced, linesOf_append, ← hleave]
  rfl

theorem lines_layOut {steps : List Step} (h : EachText SingleLine steps) (width : Nat) :
    lines (layOut width steps) = linesOf width .start steps :=
  lines_textOfRows (forall_mem_rows (by decide) h .start) width

theorem forall_mem_map_line (texts : List String) :
    ∀ step ∈ texts.map Step.line, ∃ text, step = .line text := by
  rw [List.forall_mem_map]
  exact fun text _ => ⟨text, rfl⟩

/-- Lines that follow each other are at one depth. -/
theorem rows_lines (m : Margin) (texts : List String) :
    rows m (texts.map .line) = texts.map fun text => ⟨m.depth, text⟩ := by
  induction texts generalizing m with
  | nil => rfl
  | cons text texts ih =>
      rw [List.map_cons, rows, ih]
      rfl

end UmlSkeleton

import Mathlib.Data.List.Infix
import UmlSkeleton.Proofs.Layout.Braces

/-!
# Runs of a layout

The steps of a layout may come in any order: blocks that are closed before they were opened, gaps at the
beginning of a page, lines without a text. This module says what a whole run leaves behind, in terms of the
page alone. A page grows line by line, and each line belongs to the step that wrote it. The depth is what the
steps add up to, less the lowest that they add up to on the way: each step further out at depth zero is lost.

A gap goes by a flag, and the flag knows what wrote the last line, not what it says. The two come apart at a
line with an empty text.

* `depth_run_start` — the depth in closed form.
* `linesOf_start` — the lines of a page, one for each step that wrote one.
* `gap_run` — when a gap leaves a blank line between siblings and nowhere else.
-/

namespace UmlSkeleton

open Text

variable {steps : List Step} {step : Step}

/-! ## Depth -/

/-- The lowest that some steps rise to on the way, their beginning included. -/
def lowest (steps : List Step) : Int := (steps.inits.map rise).foldl min 0

theorem lowest_concat (steps : List Step) (step : Step) :
    lowest (steps ++ [step]) = min (lowest steps) (rise (steps ++ [step])) := by
  have hinits : (steps ++ [step]).inits = steps.inits ++ [steps ++ [step]] := List.inits_append ..
  rw [lowest, hinits, List.map_append, List.foldl_append, ← lowest]
  rfl

/-- From the beginning of a page the depth is what the steps add up to, less the lowest on the way. -/
theorem depth_run_start (steps : List Step) :
    ((Margin.run .start steps).depth : Int) = rise steps - lowest steps := by
  induction steps using List.reverseRecOn with
  | nil => rfl
  | append_singleton steps step ih =>
      have hstep : rise [step] = step.rise := Int.add_zero _
      rw [Margin.run_append, Margin.run_cons, Margin.run_nil, Step.depth_after, ih, lowest_concat, rise_append,
        hstep]
      omega

/-! ## The lines of a page -/

/-- The page after some steps. -/
def pageAfter (w : Nat) (steps : List Step) : Page := (Page.new w).write steps

/-- The line that a step writes after others, if it writes one: a text behind its indentation, or nothing. A
gap writes one if the page grows. -/
def Step.written? (w : Nat) (before : List Step) (step : Step) : Option String :=
  match step with
  | .line text => some (Row.line w ⟨(pageAfter w before).margin.depth, text⟩)
  | .enter text => some (Row.line w ⟨(pageAfter w before).margin.depth, text⟩)
  | .leave text => some (Row.line w ⟨(pageAfter w (before ++ [.leave text])).margin.depth, text⟩)
  | .blank => some ""
  | .gap => if (pageAfter w (before ++ [.gap])).text = (pageAfter w before).text then none else some ""
  | .indent => none
  | .dedent => none

/-- Each step, with those before it. -/
def calls (steps : List Step) : List (List Step × Step) := steps.inits.zip steps

theorem calls_cons (step : Step) (steps : List Step) :
    calls (step :: steps) = ([], step) :: (calls steps).map (Prod.map (step :: ·) id) := by
  rw [calls, List.inits_cons, List.zip_cons_cons, calls, List.zip_map_left]

theorem calls_concat (steps : List Step) (step : Step) :
    calls (steps ++ [step]) = calls steps ++ [(steps, step)] := by
  induction steps with
  | nil => rfl
  | cons first steps ih =>
      rw [List.cons_append, calls_cons, ih, List.map_append, calls_cons]
      rfl

theorem rows_concat (m : Margin) (steps : List Step) (step : Step) :
    rows m (steps ++ [step]) = rows m steps ++ (step.row? (m.run steps)).toList := by
  rw [rows_append, rows, rows, List.append_nil]

/-- The rows of a page are those that its steps write, in order. -/
theorem rows_start (steps : List Step) :
    rows .start steps = (calls steps).filterMap fun call => call.2.row? (Margin.run .start call.1) := by
  induction steps using List.reverseRecOn with
  | nil => rfl
  | append_singleton steps step ih =>
      rw [rows_concat, ih, calls_concat, List.filterMap_append, List.filterMap_cons, List.filterMap_nil]
      cases step.row? (Margin.run .start steps) with
      | none => rfl
      | some row => rfl

/-- A page is written one step at a time. -/
theorem pageAfter_concat (w : Nat) (steps : List Step) (step : Step) :
    pageAfter w (steps ++ [step]) = (pageAfter w steps).write [step] :=
  (Page.write_write ..).symm

theorem text_pageAfter_concat_row (w : Nat) (steps : List Step) (step : Step) :
    (pageAfter w (steps ++ [step])).text =
      (pageAfter w steps).text ++ textOfRows w (step.row? (Margin.run .start steps)).toList := by
  have hrows : rows (Margin.run .start steps) [step] = (step.row? (Margin.run .start steps)).toList :=
    List.append_nil _
  rw [pageAfter_concat, ← hrows]
  exact textOfRows_append ..

theorem depth_pageAfter (w : Nat) (steps : List Step) :
    (pageAfter w steps).margin.depth = (Margin.run .start steps).depth := rfl

theorem append_newline_ne (text : String) : text ++ "\n" ≠ text := by
  simp

/-- What a step writes is its row, as a line. -/
theorem Step.written?_eq (w : Nat) (before : List Step) (step : Step) :
    step.written? w before = (step.row? (Margin.run .start before)).map (Row.line w) := by
  cases step with
  | line text => rfl
  | enter text => rfl
  | leave text =>
      rw [written?, depth_pageAfter, Margin.run_append]
      rfl
  | blank => rw [written?, row?, Option.map_some, Row.line_blank]
  | gap =>
      rw [written?, text_pageAfter_concat_row, row?]
      cases (Margin.run .start before).due with
      | true =>
          rw [if_pos rfl, Option.toList_some, textOfRows_singleton, Row.line_blank, String.empty_append,
            if_neg (append_newline_ne _), Option.map_some, Row.line_blank]
      | false => exact if_pos (String.append_empty)
  | indent => rfl
  | dedent => rfl

/-- Each step adds the line that it writes, with its end, and nothing else. -/
theorem text_pageAfter_concat (w : Nat) (before : List Step) (step : Step) :
    (pageAfter w (before ++ [step])).text =
      (pageAfter w before).text ++ (step.written? w before).elim "" (· ++ "\n") := by
  rw [text_pageAfter_concat_row, Step.written?_eq]
  cases step.row? (Margin.run .start before) with
  | none => rfl
  | some row => rw [Option.toList_some, textOfRows_singleton, Option.map_some, Option.elim_some]

theorem linesOf_concat (w : Nat) (steps : List Step) (step : Step) :
    linesOf w .start (steps ++ [step]) = linesOf w .start steps ++ (step.written? w steps).toList := by
  have hstep : linesOf w (Margin.run .start steps) [step] = (step.written? w steps).toList := by
    rw [Step.written?_eq, linesOf, rows, rows, List.append_nil, Option.toList_map]
  rw [linesOf_append, hstep]

/-- The lines of a page are those that its steps wrote, in order. -/
theorem linesOf_start (w : Nat) (steps : List Step) :
    linesOf w .start steps = (calls steps).filterMap fun call => call.2.written? w call.1 := by
  simp only [linesOf, rows_start, List.map_filterMap, Step.written?_eq]

/-! ## The last line -/

/-- The last step that wrote a line, with the steps before it. -/
def lastWriter (w : Nat) (steps : List Step) : Option (List Step × Step) :=
  (calls steps).reverse.find? fun call => (call.2.written? w call.1).isSome

theorem lastWriter_concat (w : Nat) (steps : List Step) (step : Step) :
    lastWriter w (steps ++ [step]) =
      if (step.written? w steps).isSome then some (steps, step) else lastWriter w steps := by
  rw [lastWriter, calls_concat, List.reverse_concat, List.find?_cons]
  cases (step.written? w steps).isSome with
  | true => rfl
  | false => rfl

theorem getLast?_linesOf_start (w : Nat) (steps : List Step) :
    (linesOf w .start steps).getLast? = (lastWriter w steps).bind fun call => call.2.written? w call.1 := by
  induction steps using List.reverseRecOn with
  | nil => rfl
  | append_singleton steps step ih =>
      rw [linesOf_concat, lastWriter_concat]
      cases hwritten : step.written? w steps with
      | none => rw [Option.toList_none, List.append_nil, ih]; rfl
      | some line => rw [Option.toList_some, List.getLast?_concat]; exact hwritten.symm

/-- The step opens a block. -/
def Step.opens : Step → Bool
  | .enter _ => true
  | _ => false

/-- After a line of this step a gap is due. -/
def Step.settles : Step → Bool
  | .line _ => true
  | .leave _ => true
  | _ => false

/-- Whether a gap is due is up to the last step that wrote a row. -/
theorem Step.due_after (m : Margin) (step : Step) :
    (step.after m).due = if (step.row? m).isSome then step.settles else m.due := by
  cases step with
  | gap => cases hdue : m.due <;> simp [after, row?, settles, hdue]
  | _ => rfl

theorem due_run_start (w : Nat) (steps : List Step) :
    (Margin.run .start steps).due = (lastWriter w steps).any (·.2.settles) := by
  induction steps using List.reverseRecOn with
  | nil => rfl
  | append_singleton steps step ih =>
      rw [Margin.run_append, Margin.run_cons, Margin.run_nil, Step.due_after, lastWriter_concat,
        Step.written?_eq, Option.isSome_map, ih]
      cases (step.row? (Margin.run .start steps)).isSome with
      | true => rfl
      | false => rfl

/-! ## Gaps -/

theorem Row.line_eq_empty_iff {w : Nat} {row : Row} : row.line w = "" ↔ row.text = "" := by
  unfold Row.line
  split
  · next h => exact iff_of_true rfl h
  · next h => simp [h]

/-- There are no siblings to separate: the page is empty, or its last line is blank or opens a block. -/
def NothingToSeparate (w : Nat) (steps : List Step) : Prop :=
  (pageAfter w steps).text = "" ∨ (lines (pageAfter w steps).text).getLast? = some "" ∨
    ∃ call ∈ lastWriter w steps, call.2.opens = true

/-- A gap leaves one blank line where there is something to separate, and nothing elsewhere. -/
structure GapSeparates (w : Nat) (steps : List Step) : Prop where
  keeps : NothingToSeparate w steps → (pageAfter w (steps ++ [.gap])).text = (pageAfter w steps).text
  leaves : ¬ NothingToSeparate w steps →
    (pageAfter w (steps ++ [.gap])).text = (pageAfter w steps).text ++ "\n"

/-- A gap goes by the step that wrote the last line. -/
theorem text_gap (w : Nat) (steps : List Step) :
    (pageAfter w (steps ++ [.gap])).text =
      (pageAfter w steps).text ++ if (lastWriter w steps).any (·.2.settles) then "\n" else "" := by
  rw [text_pageAfter_concat, Step.written?_eq, Step.row?, ← due_run_start]
  cases (Margin.run .start steps).due with
  | true => rw [if_pos rfl, if_pos rfl, Option.map_some, Row.line_blank, Option.elim_some, String.empty_append]
  | false => rfl

/-- A line that a step wrote is blank or opens a block, unless the step is one that settles and has a text. -/
theorem Step.blank_or_opens_iff {w : Nat} {before : List Step} {line : String}
    (h : step.written? w before = some line) :
    line = "" ∨ step.opens = true ↔ step.settles = true → step = .line "" ∨ step = .leave "" := by
  cases step with
  | line text => cases h; simp [opens, settles, Row.line_eq_empty_iff]
  | enter text => simp [opens, settles]
  | leave text => cases h; simp [opens, settles, Row.line_eq_empty_iff]
  | blank => cases h; simp [settles]
  | gap =>
      rw [written?] at h
      split at h
      · cases h
      · cases h; simp [settles]
  | indent => cases h
  | dedent => cases h

theorem text_pageAfter_eq_empty_iff {w : Nat} :
    (pageAfter w steps).text = "" ↔ lastWriter w steps = none := by
  induction steps using List.reverseRecOn with
  | nil => exact iff_of_true rfl rfl
  | append_singleton steps step ih =>
      rw [text_pageAfter_concat, lastWriter_concat]
      cases step.written? w steps with
      | none =>
          rw [Option.elim_none, String.append_empty, ih]
          rfl
      | some line => simp

theorem exists_written_of_lastWriter {w : Nat} {call : List Step × Step} (h : lastWriter w steps = some call) :
    ∃ line, call.2.written? w call.1 = some line := by
  unfold lastWriter at h
  have hsome := List.find?_some h
  exact Option.isSome_iff_exists.mp hsome

theorem nothingToSeparate_iff (h : EachText SingleLine steps) (w : Nat) :
    NothingToSeparate w steps ↔
      ∀ call ∈ lastWriter w steps, call.2.settles = true → call.2 = .line "" ∨ call.2 = .leave "" := by
  have hlast : (lines (pageAfter w steps).text).getLast? =
      (lastWriter w steps).bind fun call => call.2.written? w call.1 := by
    rw [← getLast?_linesOf_start]
    exact congrArg List.getLast? (lines_layOut h w)
  rw [NothingToSeparate, text_pageAfter_eq_empty_iff, hlast]
  cases hcall : lastWriter w steps with
  | none => exact iff_of_true (.inl rfl) (fun _ hnone => by cases hnone)
  | some call =>
      obtain ⟨line, hline⟩ := exists_written_of_lastWriter hcall
      simpa [hline] using Step.blank_or_opens_iff hline

/-- By the step that wrote the last line, a gap is due exactly where there is something to separate. -/
theorem gapSeparates_iff_settles {w : Nat} :
    GapSeparates w steps ↔ ((lastWriter w steps).any (·.2.settles) = true ↔ ¬ NothingToSeparate w steps) := by
  cases hdue : (lastWriter w steps).any (·.2.settles) with
  | true =>
      have hgap : (pageAfter w (steps ++ [.gap])).text = (pageAfter w steps).text ++ "\n" := by
        rw [text_gap, hdue]
        rfl
      have hkeeps : (pageAfter w (steps ++ [.gap])).text ≠ (pageAfter w steps).text := by
        rw [hgap]
        exact append_newline_ne _
      exact ⟨fun h => iff_of_true rfl fun hnothing => hkeeps (h.keeps hnothing),
        fun h => ⟨fun hnothing => absurd hnothing (h.mp rfl), fun _ => hgap⟩⟩
  | false =>
      have hgap : (pageAfter w (steps ++ [.gap])).text = (pageAfter w steps).text := by
        rw [text_gap, hdue]
        exact String.append_empty
      have hleaves : (pageAfter w (steps ++ [.gap])).text ≠ (pageAfter w steps).text ++ "\n" := by
        rw [hgap]
        exact (append_newline_ne _).symm
      exact ⟨fun h => iff_of_false Bool.false_ne_true fun hsomething => hleaves (h.leaves hsomething),
        fun h => ⟨fun _ => hgap, fun hsomething => absurd (h.mpr hsomething) Bool.false_ne_true⟩⟩

/-- **Gaps.** A gap leaves one blank line if the last line was written as a line or as the end of a block, and
nothing otherwise. So it separates siblings and stands nowhere else, unless that last line has an empty text:
such a line is blank, but a gap takes it for a sibling. -/
theorem gap_run (h : EachText SingleLine steps) (w : Nat) :
    (pageAfter w (steps ++ [.gap])).text =
        (pageAfter w steps).text ++ (if (lastWriter w steps).any (·.2.settles) then "\n" else "") ∧
      (GapSeparates w steps ↔ ∀ call ∈ lastWriter w steps, call.2 ≠ .line "" ∧ call.2 ≠ .leave "") := by
  refine ⟨text_gap w steps, ?_⟩
  rw [gapSeparates_iff_settles, nothingToSeparate_iff h]
  cases lastWriter w steps with
  | none => simp
  | some call =>
      obtain ⟨before, step⟩ := call
      cases step <;> simp [Step.settles]

/-- Below the line that opens a block there is nothing to separate; below the line in it there is. -/
theorem gap_run_of_block :
    EachText SingleLine [.enter "a \x7b", .gap, .line "x"] ∧ GapSeparates 2 [.enter "a \x7b", .gap, .line "x"] := by
  have htexts : EachText SingleLine [.enter "a \x7b", .gap, .line "x"] := by
    simp +decide
  refine ⟨htexts, (gap_run htexts 2).2.mpr fun call hcall => ?_⟩
  have hlast : lastWriter 2 [.enter "a \x7b", .gap, .line "x"] = some ([.enter "a \x7b", .gap], .line "x") := rfl
  rw [hlast] at hcall
  cases hcall
  exact ⟨by decide, by decide⟩

/-- Below a line without a text a gap leaves a second blank line. -/
theorem not_gapSeparates_of_empty_line :
    EachText SingleLine [.line "x", .line ""] ∧ ¬ GapSeparates 4 [.line "x", .line ""] := by
  have htexts : EachText SingleLine [.line "x", .line ""] := by
    simp +decide
  have hnothing : NothingToSeparate 4 [.line "x", .line ""] := .inr (.inl (by decide))
  exact ⟨htexts, fun h => absurd (h.keeps hnothing) (by decide)⟩

end UmlSkeleton

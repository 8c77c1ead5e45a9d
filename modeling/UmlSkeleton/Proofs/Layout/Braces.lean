import UmlSkeleton.Proofs.Layout.Texts

/-!
# Depth and braces

Where blocks stand in braces, the braces alone tell how deep a row is: as deep as blocks are open before
it, one less if it closes one. A layout keeps the depth in a margin of its own and never goes below zero,
so the two could come apart at a brace too many. They do not as long as the steps are level. Such steps
come back to every depth they begin at, also to zero, so nowhere on the way was a step further out lost.

* `Level.depth_run` — on the way through level steps the depth is what the steps before add up to.
* `InBraces` — steps whose blocks stand in braces, while nothing else in them is a brace.
* `InBraces.followsBraces` — level steps of this kind have rows that follow their braces.
-/

namespace UmlSkeleton

open Text

/-! ## How deep steps go -/

/-- How much further in a step goes. -/
def Step.rise : Step → Int
  | .line _ => 0
  | .enter _ => 1
  | .leave _ => -1
  | .blank => 0
  | .gap => 0
  | .indent => 1
  | .dedent => -1

/-- How much further in some steps go, all together. -/
def rise : List Step → Int
  | [] => 0
  | step :: more => step.rise + rise more

theorem rise_append (xs ys : List Step) : rise (xs ++ ys) = rise xs + rise ys := by
  induction xs with
  | nil => exact (Int.zero_add _).symm
  | cons x xs ih => rw [List.cons_append, rise, rise, ih, Int.add_assoc]

theorem Step.neg_one_le_rise (step : Step) : -1 ≤ step.rise := by
  cases step <;> simp [rise]

/-- A step goes as far as it rises, but not below zero. -/
theorem Step.depth_after (m : Margin) (step : Step) :
    ((step.after m).depth : Int) = max 0 (m.depth + step.rise) := by
  cases step <;> simp only [Step.after, Step.rise] <;> omega

theorem Step.depth_after_eq {m : Margin} (h : 1 ≤ m.depth) (step : Step) :
    ((step.after m).depth : Int) = m.depth + step.rise := by
  have hrise := step.neg_one_le_rise
  rw [depth_after, Int.max_eq_right (by omega)]

/-- At depth zero a step further out is lost, and the layout stays further in than the steps say. -/
theorem Step.le_depth_after (m : Margin) (step : Step) :
    (m.depth : Int) + step.rise ≤ (step.after m).depth := by
  rw [depth_after]
  exact Int.le_max_right ..

theorem le_depth_run (m : Margin) (steps : List Step) :
    (m.depth : Int) + rise steps ≤ (m.run steps).depth := by
  induction steps generalizing m with
  | nil => exact Int.le_of_eq (Int.add_zero _)
  | cons step steps ih =>
      calc (m.depth : Int) + rise (step :: steps)
          = m.depth + step.rise + rise steps := by rw [rise, Int.add_assoc]
        _ ≤ (step.after m).depth + rise steps := by have := step.le_depth_after m; omega
        _ ≤ (m.run (step :: steps)).depth := ih _

/-- Far enough in, no step is lost. -/
theorem depth_run_eq {m : Margin} {steps : List Step} (h : steps.length ≤ m.depth) :
    ((m.run steps).depth : Int) = m.depth + rise steps := by
  induction steps generalizing m with
  | nil => exact (Int.add_zero _).symm
  | cons step steps ih =>
      rw [List.length_cons] at h
      have hstep := step.depth_after_eq (Nat.le_of_add_left_le h)
      have hrise := step.neg_one_le_rise
      rw [Margin.run_cons, ih (by omega), hstep, rise, Int.add_assoc]

namespace Level

variable {steps xs ys : List Step}

/-- Level steps go as far out as they go in. -/
theorem rise_eq_zero (h : Level steps) : rise steps = 0 := by
  have hrun := depth_run_eq (m := ⟨steps.length, false⟩) (Nat.le_refl _)
  rw [h] at hrun
  omega

/-- On the way through level steps the depth is what the steps before add up to. If a step further out
were lost, the layout could not be back at zero in the end. -/
theorem depth_run (h : Level (xs ++ ys)) : ((Margin.run .start xs).depth : Int) = rise xs := by
  have hxs := le_depth_run .start xs
  have hys := le_depth_run (Margin.run .start xs) ys
  have htotal := h.rise_eq_zero
  rw [rise_append] at htotal
  rw [← Margin.run_append, h] at hys
  have hstart : Margin.start.depth = 0 := rfl
  omega

end Level

/-! ## Rows that follow their braces -/

/-- The braces that a text opens, less those that it closes. -/
def openedBy (text : String) : Int := text.toList.count '\x7b' - text.toList.count '\x7d'

/-- The braces that are open after some texts. -/
def openAfter : List String → Int
  | [] => 0
  | text :: more => openedBy text + openAfter more

/-- One if the text starts with a closing brace. -/
def closing (text : String) : Int := if text.toList.head? = some '\x7d' then 1 else 0

/-- Every row is as deep as braces are open before it, one less if it starts with a closing brace. There
are never more braces closed than opened, and in the end all are closed. -/
structure FollowsBraces (rs : List Row) : Prop where
  depth : ∀ before row after, rs = before ++ row :: after →
    (row.depth : Int) = openAfter (before.map (·.text)) - closing row.text
  nonneg : ∀ before after, rs = before ++ after → 0 ≤ openAfter (before.map (·.text))
  closed : openAfter (rs.map (·.text)) = 0

theorem openAfter_append (xs ys : List String) :
    openAfter (xs ++ ys) = openAfter xs + openAfter ys := by
  induction xs with
  | nil => exact (Int.zero_add _).symm
  | cons x xs ih => rw [List.cons_append, openAfter, openAfter, ih, Int.add_assoc]

theorem openedBy_append (s t : String) : openedBy (s ++ t) = openedBy s + openedBy t := by
  unfold openedBy
  rw [String.toList_append, List.count_append, List.count_append]
  omega

theorem Text.Without.not_mem {text : String} (h : Without isFraming text) {c : Char}
    (hc : isFraming c = true) : c ∉ text.toList := by
  intro hmem
  rw [h c hmem] at hc
  cases hc

theorem openedBy_eq_zero {text : String} (h : Without isFraming text) : openedBy text = 0 := by
  rw [openedBy, List.count_eq_zero.mpr (h.not_mem (by decide)),
    List.count_eq_zero.mpr (h.not_mem (by decide))]
  rfl

theorem closing_eq_zero {text : String} (h : '\x7d' ∉ text.toList) : closing text = 0 :=
  if_neg fun hhead => h (List.mem_of_head? hhead)

/-! ## Steps in braces -/

/-- The step writes a line or a blank line, or it opens or closes a block in braces; what it says besides
the braces satisfies `p`. -/
def Step.InBraces (p : String → Prop) : Step → Prop
  | .line text => p text
  | .enter text => ∃ header, text = header ++ " \x7b" ∧ p header
  | .leave text => text = "\x7d"
  | .blank => True
  | .gap => True
  | .indent => False
  | .dedent => False

def InBraces (p : String → Prop) (steps : List Step) : Prop := ∀ step ∈ steps, step.InBraces p

section
variable {p : String → Prop} {steps body : List Step} {header text : String}

@[simp] theorem inBraces_nil : InBraces p [] := by simp [InBraces]

@[simp] theorem inBraces_line_cons :
    InBraces p (.line text :: steps) ↔ p text ∧ InBraces p steps := List.forall_mem_cons

@[simp] theorem inBraces_gap_cons : InBraces p (.gap :: steps) ↔ InBraces p steps := by
  simp [InBraces, Step.InBraces]

@[simp] theorem inBraces_append {xs ys : List Step} :
    InBraces p (xs ++ ys) ↔ InBraces p xs ∧ InBraces p ys := List.forall_mem_append

@[simp] theorem inBraces_flatMap {items : List α} {f : α → List Step} :
    InBraces p (items.flatMap f) ↔ ∀ a ∈ items, InBraces p (f a) := List.forall_mem_flatMap

@[simp] theorem inBraces_map_line {items : List α} {f : α → String} :
    InBraces p (items.map fun a => .line (f a)) ↔ ∀ a ∈ items, p (f a) := List.forall_mem_map

@[simp] theorem inBraces_spaced {blocks : List (List Step)} :
    InBraces p (spaced blocks) ↔ ∀ b ∈ blocks, InBraces p b := by
  simp [spaced]

theorem inBraces_braced (hheader : p header) (hbody : InBraces p body) :
    InBraces p (braced header body) := by
  unfold braced
  rw [inBraces_append]
  refine ⟨List.forall_mem_cons.mpr ⟨⟨header, rfl, hheader⟩, hbody⟩, ?_⟩
  exact List.forall_mem_singleton.mpr rfl

theorem InBraces.stepsIf {condition : Bool} (h : InBraces p steps) :
    InBraces p (stepsIf condition steps) := by
  cases condition with
  | false => exact inBraces_nil
  | true => exact h

/-- A property of what the steps say holds with the braces as well, if the braces have it. -/
theorem InBraces.eachText {q : String → Prop} (h : InBraces p steps) (hp : ∀ text, p text → q text)
    (hopen : ∀ text, p text → q (text ++ " \x7b")) (hclose : q "\x7d") : EachText q steps := by
  intro step hstep text htext
  have hin := h step hstep
  cases step with
  | line text =>
      cases htext
      exact hp text hin
  | enter text =>
      cases htext
      obtain ⟨header, rfl, hheader⟩ := hin
      exact hopen header hheader
  | leave text =>
      cases htext
      cases hin
      exact hclose
  | blank => cases htext
  | gap => cases htext
  | indent => cases htext
  | dedent => cases htext

end

/-! ## Rows of steps in braces -/

/-- A row is written by one step, after the steps that write the rows before it. -/
theorem exists_step_of_rows_eq {m : Margin} {steps : List Step} {before after : List Row} {row : Row}
    (h : rows m steps = before ++ row :: after) :
    ∃ xs step ys, steps = xs ++ step :: ys ∧ rows m xs = before ∧ step.row? (m.run xs) = some row := by
  induction steps generalizing m before with
  | nil => cases before <;> cases h
  | cons step steps ih =>
      rw [rows] at h
      cases hrow : step.row? m with
      | none =>
          rw [hrow] at h
          obtain ⟨xs, s, ys, rfl, hbefore, hs⟩ := ih h
          exact ⟨step :: xs, s, ys, rfl, by rw [rows, hrow, hbefore]; rfl, hs⟩
      | some first =>
          rw [hrow] at h
          cases before with
          | nil =>
              obtain ⟨rfl, -⟩ := List.cons.inj h
              exact ⟨[], step, steps, rfl, rfl, hrow⟩
          | cons b before =>
              obtain ⟨rfl, hmore⟩ := List.cons.inj h
              obtain ⟨xs, s, ys, rfl, hbefore, hs⟩ := ih hmore
              exact ⟨step :: xs, s, ys, rfl, by rw [rows, hrow, hbefore]; rfl, hs⟩

namespace Step.InBraces

variable {step : Step} (h : step.InBraces (Without isFraming))
include h

/-- A step goes as much further in as its row opens braces. -/
theorem openAfter_row (m : Margin) : openAfter ((step.row? m).toList.map (·.text)) = step.rise := by
  cases step with
  | line text =>
      show openedBy text + 0 = 0
      rw [openedBy_eq_zero h]
      rfl
  | enter text =>
      obtain ⟨header, rfl, hheader⟩ := h
      show openedBy (header ++ " \x7b") + 0 = 1
      rw [openedBy_append, openedBy_eq_zero hheader]
      decide
  | leave text =>
      cases h
      show openedBy "\x7d" + 0 = -1
      decide
  | blank => exact (by decide : openedBy "" + 0 = 0)
  | gap =>
      obtain ⟨depth, due⟩ := m
      cases due with
      | true => exact (by decide : openedBy "" + 0 = 0)
      | false => rfl
  | indent => cases h
  | dedent => cases h

/-- Its row is as deep as the layout stands, or one less if it starts with a closing brace. -/
theorem depth_row {m : Margin} {row : Row} (hrow : step.row? m = some row)
    (hrise : 0 ≤ (m.depth : Int) + step.rise) : (row.depth : Int) = m.depth - closing row.text := by
  cases step with
  | line text =>
      cases hrow
      rw [closing_eq_zero (Without.not_mem h (by decide)), Int.sub_zero]
  | enter text =>
      cases hrow
      obtain ⟨header, rfl, hheader⟩ := h
      have hno : '\x7d' ∉ (header ++ " \x7b").toList := by
        rw [String.toList_append, List.mem_append, not_or]
        exact ⟨hheader.not_mem (by decide), by decide⟩
      rw [closing_eq_zero hno, Int.sub_zero]
  | leave text =>
      cases hrow
      cases h
      -- The brace closes a block that is open, so there is a depth to come back from.
      have hclosing : closing "\x7d" = 1 := by decide
      show ((m.depth - 1 : Nat) : Int) = m.depth - closing "\x7d"
      rw [rise] at hrise
      rw [hclosing]
      omega
  | blank =>
      cases hrow
      exact (Int.sub_zero _).symm
  | gap =>
      rw [row?] at hrow
      split at hrow
      · cases hrow
        exact (Int.sub_zero _).symm
      · cases hrow
  | indent => cases h
  | dedent => cases h

end Step.InBraces

section
variable {steps : List Step} (h : InBraces (Without isFraming) steps)
include h

theorem InBraces.openAfter_rowTexts (m : Margin) : openAfter (rowTexts m steps) = rise steps := by
  induction steps generalizing m with
  | nil => rfl
  | cons step steps ih =>
      obtain ⟨hstep, hsteps⟩ := List.forall_mem_cons.mp h
      have hmore : openAfter ((rows (step.after m) steps).map (·.text)) = rise steps := ih hsteps _
      rw [rowTexts, rows, List.map_append, openAfter_append, hstep.openAfter_row, hmore, rise]

/-- Level steps in braces have rows that follow their braces. -/
theorem InBraces.followsBraces (hlevel : Level steps) : FollowsBraces (rows .start steps) := by
  have hclosed : openAfter ((rows .start steps).map (·.text)) = 0 :=
    (h.openAfter_rowTexts .start).trans hlevel.rise_eq_zero
  -- The braces open before a row are the depth at which its step begins.
  have hopen {before after : List Row} {row : Row} (hrows : rows .start steps = before ++ row :: after) :
      ∃ xs step ys, steps = xs ++ step :: ys ∧ step.row? (Margin.run .start xs) = some row ∧
        openAfter (before.map (·.text)) = (Margin.run .start xs).depth := by
    obtain ⟨xs, step, ys, rfl, rfl, hrow⟩ := exists_step_of_rows_eq hrows
    refine ⟨xs, step, ys, rfl, hrow, ?_⟩
    rw [hlevel.depth_run]
    exact InBraces.openAfter_rowTexts (inBraces_append.mp h).1 .start
  refine ⟨?_, ?_, hclosed⟩
  · intro before row after hrows
    obtain ⟨xs, step, ys, rfl, hrow, hbefore⟩ := hopen hrows
    have hstep : step.InBraces (Without isFraming) := h step (by simp)
    -- The depth after the step is a depth too, so it is not below zero.
    have hsplit : Level ((xs ++ [step]) ++ ys) := by rwa [List.append_assoc]
    have hafter : ((Margin.run .start (xs ++ [step])).depth : Int) = rise xs + (step.rise + 0) := by
      rw [hsplit.depth_run, rise_append]
      rfl
    rw [hbefore]
    refine hstep.depth_row hrow ?_
    rw [hlevel.depth_run]
    omega
  · intro before after hrows
    cases after with
    | nil =>
        rw [List.append_nil] at hrows
        exact Int.le_of_eq (hrows ▸ hclosed.symm)
    | cons row after =>
        obtain ⟨xs, step, ys, -, -, hbefore⟩ := hopen hrows
        rw [hbefore]
        exact Int.natCast_nonneg _

end

end UmlSkeleton

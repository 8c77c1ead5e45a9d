import UmlSkeleton.Skeleton.Block

/-!
# What a layout leaves behind

All blocks of a skeleton are laid out on one page, so each begins where the one before it left the
margin. This module says where that is.

* `Level` — steps that end at the depth they began at.
* `Settled` — level steps after which a gap is due, whatever was due before them.
* `rows_siblings` — settled parts with a separator before each: every part begins where a page or a
  block begins, so the rows are those of the parts, with the separator's rows before each.

A block in braces is settled as soon as its body is level, because its last step is the line of the
brace. A block that ends where its indentation does is settled only if its body is: the step that
ends it leaves open whether a gap is due.
-/

namespace UmlSkeleton

/-! ## Level steps -/

/-- The steps end at the depth they began at. -/
def Level (steps : List Step) : Prop := ∀ m : Margin, (m.run steps).depth = m.depth

/-- The steps end at the depth they began at, and a gap is due after them. -/
def Settled (steps : List Step) : Prop := ∀ m : Margin, m.run steps = ⟨m.depth, true⟩

@[simp] theorem Margin.run_nil (m : Margin) : m.run [] = m := rfl

@[simp] theorem Margin.run_cons (m : Margin) (step : Step) (steps : List Step) :
    m.run (step :: steps) = (step.after m).run steps := rfl

theorem Settled.level {steps : List Step} (h : Settled steps) : Level steps := by
  intro m
  rw [h m]

theorem level_nil : Level [] := fun _ => rfl

theorem Level.append {xs ys : List Step} (hx : Level xs) (hy : Level ys) : Level (xs ++ ys) := by
  intro m
  rw [Margin.run_append, hy, hx]

/-- What comes before settled steps does not matter, as long as it keeps the depth. -/
theorem Settled.append {xs ys : List Step} (hx : Level xs) (hy : Settled ys) :
    Settled (xs ++ ys) := by
  intro m
  rw [Margin.run_append, hy, hx]

theorem level_flatMap {items : List α} {steps : α → List Step} (h : ∀ a ∈ items, Level (steps a)) :
    Level (items.flatMap steps) := by
  induction items with
  | nil => exact level_nil
  | cons a items ih =>
      rw [List.flatMap_cons]
      refine Level.append (h a (by simp)) (ih ?_)
      intro b hb
      exact h b (by simp [hb])

theorem level_stepsIf {condition : Bool} {steps : List Step} (h : Level steps) :
    Level (stepsIf condition steps) := by
  cases condition with
  | false => exact level_nil
  | true => exact h

/-! ## Lines -/

theorem settled_line (text : String) : Settled [.line text] := fun _ => rfl

theorem Level.line {steps : List Step} (h : Level steps) (text : String) :
    Level (.line text :: steps) := fun m => h ⟨m.depth, true⟩

theorem Settled.line {steps : List Step} (h : Settled steps) (text : String) :
    Settled (.line text :: steps) := fun m => h ⟨m.depth, true⟩

/-- Any number of lines keeps the depth. -/
theorem level_lines {steps : List Step} (h : ∀ s ∈ steps, ∃ text, s = .line text) :
    Level steps := by
  rw [← List.flatMap_singleton' steps]
  apply level_flatMap
  intro s hs
  obtain ⟨text, rfl⟩ := h s hs
  exact (settled_line text).level

/-- At least one line settles. -/
theorem settled_lines {steps : List Step} (h : ∀ s ∈ steps, ∃ text, s = .line text)
    (hne : steps ≠ []) : Settled steps := by
  obtain ⟨init, last, rfl⟩ := (List.eq_nil_or_concat steps).resolve_left hne
  obtain ⟨text, rfl⟩ := h last (by simp)
  rw [List.concat_eq_append] at h ⊢
  refine Settled.append (level_lines ?_) (settled_line text)
  intro s hs
  exact h s (by simp [hs])

/-! ## Blocks -/

theorem settled_braced {header : String} {body : List Step} (h : Level body) :
    Settled (braced header body) := by
  intro m
  have hbody := h ⟨m.depth + 1, false⟩
  rw [braced, Margin.run_append]
  -- Whatever is due after the body, the closing line is written last.
  show (⟨(Margin.run ⟨m.depth + 1, false⟩ body).depth - 1, true⟩ : Margin) = _
  rw [hbody]
  rfl

theorem level_indented {header : String} {body : List Step} (h : Level body) :
    Level (indented header body) := by
  intro m
  rw [indented, Margin.run_append]
  show (Margin.run ⟨m.depth + 1, false⟩ body).depth - 1 = m.depth
  rw [h]
  rfl

theorem settled_indented {header : String} {body : List Step} (h : Settled body) :
    Settled (indented header body) := by
  intro m
  have hbody := h ⟨m.depth + 1, false⟩
  rw [indented, Margin.run_append]
  -- The last step writes nothing: the gap is due because it was due after the body.
  show Step.after (Margin.run ⟨m.depth + 1, false⟩ body) .dedent = _
  rw [hbody]
  rfl

theorem level_spaced {blocks : List (List Step)} (h : ∀ b ∈ blocks, Level b) :
    Level (spaced blocks) := by
  apply level_flatMap
  intro b hb m
  exact h b hb _

/-- Blocks with gaps between them are settled by the last one. -/
theorem settled_spaced {blocks : List (List Step)} (h : ∀ b ∈ blocks, Settled b)
    (hne : blocks ≠ []) : Settled (spaced blocks) := by
  obtain ⟨init, last, rfl⟩ := (List.eq_nil_or_concat blocks).resolve_left hne
  rw [List.concat_eq_append, spaced, List.flatMap_append] at *
  have hinit : Level (spaced init) := level_spaced fun b hb => (h b (by simp [hb])).level
  refine Settled.append hinit ?_
  intro m
  rw [List.flatMap_singleton, Margin.run_cons]
  exact h last (by simp) _

/-! ## Rows as text -/

/-- At depth zero a row is its text, at any width. -/
theorem textOfRows_margin (width : Nat) (text : String) :
    textOfRows width [⟨0, text⟩] = text ++ "\n" := by
  rw [textOfRows, List.flatMap_singleton, Row.chars]
  split
  · next h => subst h; rfl
  · rw [Nat.zero_mul, List.replicate_zero, List.nil_append, String.ofList_append,
      String.ofList_toList]

/-! ## Siblings on a page -/

theorem textOfRows_flatMap (width : Nat) (items : List α) (f : α → List Row) :
    textOfRows width (items.flatMap f) = String.join (items.map fun a => textOfRows width (f a)) := by
  induction items with
  | nil => rfl
  | cons a items ih =>
      rw [List.flatMap_cons, textOfRows_append, ih, List.map_cons, String.join_cons]

section
variable {separator : List Step} {parts : List (List Step)} {d : Nat}
  (hsep : Margin.run ⟨d, true⟩ separator = ⟨d, false⟩)
  (h : ∀ p ∈ parts, Margin.run ⟨d, false⟩ p = ⟨d, true⟩)
include hsep h

/-- Parts with a separator before each leave a page as the first separator found it. -/
theorem run_siblings : Margin.run ⟨d, true⟩ (parts.flatMap (separator ++ ·)) = ⟨d, true⟩ := by
  induction parts with
  | nil => rfl
  | cons p parts ih =>
      obtain ⟨hp, hparts⟩ := List.forall_mem_cons.mp h
      rw [List.flatMap_cons, Margin.run_append, Margin.run_append, hsep, hp]
      exact ih hparts

/-- Every part begins where no gap is due, whatever stands before its separator. -/
theorem rows_siblings : rows ⟨d, true⟩ (parts.flatMap (separator ++ ·)) =
    parts.flatMap fun p => rows ⟨d, true⟩ separator ++ rows ⟨d, false⟩ p := by
  induction parts with
  | nil => rfl
  | cons p parts ih =>
      obtain ⟨hp, hparts⟩ := List.forall_mem_cons.mp h
      rw [List.flatMap_cons, rows_append, rows_append, Margin.run_append, hsep, hp, ih hparts,
        List.flatMap_cons]

/-- At the margin of a page each part is laid out as if it stood alone. -/
theorem textOfRows_siblings (width : Nat) :
    textOfRows width (rows ⟨d, true⟩ (parts.flatMap (separator ++ ·))) =
      String.join (parts.map fun p =>
        textOfRows width (rows ⟨d, true⟩ separator) ++ textOfRows width (rows ⟨d, false⟩ p)) := by
  rw [rows_siblings hsep h, textOfRows_flatMap]
  simp only [textOfRows_append]

end

section
variable {blocks : List (List Step)} {d : Nat} (h : ∀ b ∈ blocks, Margin.run ⟨d, false⟩ b = ⟨d, true⟩)
include h

/-- Blocks with a gap before each, where one is due: each gap is a blank row. -/
theorem rows_spaced :
    rows ⟨d, true⟩ (spaced blocks) = blocks.flatMap fun b => ⟨d, ""⟩ :: rows ⟨d, false⟩ b :=
  have hgap : Margin.run ⟨d, true⟩ [.gap] = ⟨d, false⟩ := rfl
  rows_siblings hgap h

theorem run_spaced : Margin.run ⟨d, true⟩ (spaced blocks) = ⟨d, true⟩ :=
  have hgap : Margin.run ⟨d, true⟩ [.gap] = ⟨d, false⟩ := rfl
  run_siblings hgap h

end

/-! ## Something is written -/

/-- A gap becomes due only by writing a row. -/
theorem due_of_rows_eq_nil {m : Margin} {steps : List Step} (h : rows m steps = [])
    (hdue : (m.run steps).due = true) : m.due = true := by
  induction steps generalizing m with
  | nil => exact hdue
  | cons step steps ih =>
      rw [rows, List.append_eq_nil_iff] at h
      have hm : (step.after m).due = true := ih h.2 hdue
      cases step with
      | line text => exact absurd h.1 (by simp [Step.row?])
      | enter text => exact absurd h.1 (by simp [Step.row?])
      | leave text => exact absurd h.1 (by simp [Step.row?])
      | blank => exact absurd h.1 (by simp [Step.row?])
      | gap => exact absurd hm (by simp [Step.after])
      | indent => exact hm
      | dedent => exact hm

theorem Settled.rows_ne_nil {steps : List Step} (h : Settled steps) : rows .start steps ≠ [] := by
  intro hrows
  have hdue : (Margin.run .start steps).due = true := by rw [h]
  exact absurd (due_of_rows_eq_nil hrows hdue) (by decide)

theorem Row.exists_chars_eq (width : Nat) (row : Row) : ∃ cs, row.chars width = cs ++ ['\n'] := by
  unfold Row.chars
  split
  · exact ⟨[], rfl⟩
  · exact ⟨_, rfl⟩

/-- The text of settled steps ends a line. -/
theorem Settled.exists_layOut_eq {steps : List Step} (h : Settled steps) (width : Nat) :
    ∃ init, layOut width steps = init ++ "\n" := by
  obtain ⟨init, last, hrows⟩ := (List.eq_nil_or_concat _).resolve_left h.rows_ne_nil
  obtain ⟨cs, hcs⟩ := last.exists_chars_eq width
  refine ⟨textOfRows width init ++ String.ofList cs, ?_⟩
  rw [layOut, hrows, List.concat_eq_append, textOfRows_append, String.append_assoc]
  congr 1
  rw [textOfRows, List.flatMap_singleton, hcs, String.ofList_append]

end UmlSkeleton

import UmlSkeleton.Proofs.Layout.Lines

/-!
# Lines selected from a layout

A test selects some of the lines of a text and says nothing of the others. What it selects of the lines of
a layout comes from the parts of the layout, in order, as long as it selects no blank lines: then the gaps
between the parts do not count, and each part contributes the same lines whatever stands before it.

* `Selects` — the lines that level steps contribute at a depth.
* `Selects.append`, `flatMap`, `braced`, `indented`, … — one law for each way of putting layouts together.
-/

namespace UmlSkeleton

/-- At this depth the lines of the steps that pass the test are these, whether a gap is due or not. -/
structure Selects (test : String → Bool) (w d : Nat) (steps : List Step) (out : List String) : Prop where
  level : Level steps
  filter_eq : ∀ due, (linesOf w ⟨d, due⟩ steps).filter test = out

namespace Selects

variable {test : String → Bool} {w d : Nat} {xs ys steps body : List Step} {header text : String}
  {a b out : List String}

theorem nil : Selects test w d [] [] := ⟨level_nil, fun _ => rfl⟩

theorem append (hx : Selects test w d xs a) (hy : Selects test w d ys b) :
    Selects test w d (xs ++ ys) (a ++ b) := by
  refine ⟨hx.level.append hy.level, fun due => ?_⟩
  have hdepth := hx.level ⟨d, due⟩
  rw [linesOf_append, List.filter_append, hx.filter_eq]
  cases hrun : Margin.run ⟨d, due⟩ xs with
  | mk depth due' =>
      rw [hrun] at hdepth
      cases hdepth
      rw [hy.filter_eq]

theorem flatMap {items : List α} {f : α → List Step} {g : α → List String}
    (h : ∀ i ∈ items, Selects test w d (f i) (g i)) :
    Selects test w d (items.flatMap f) (items.flatMap g) := by
  induction items with
  | nil => exact nil
  | cons i items ih =>
      obtain ⟨hi, hmore⟩ := List.forall_mem_cons.mp h
      rw [List.flatMap_cons, List.flatMap_cons]
      exact hi.append (ih hmore)

/-- Parts that contribute nothing, one after the other. -/
theorem flatMap_nil {items : List α} {f : α → List Step}
    (h : ∀ i ∈ items, Selects test w d (f i) []) : Selects test w d (items.flatMap f) [] := by
  have hout : items.flatMap (fun _ => ([] : List String)) = [] := by simp
  rw [← hout]
  exact flatMap h

theorem stepsIf (condition : Bool) (h : Selects test w d steps []) :
    Selects test w d (stepsIf condition steps) [] := by
  cases condition with
  | false => exact nil
  | true => exact h

theorem line_of_pos (h : test (Row.line w ⟨d, text⟩) = true) :
    Selects test w d [.line text] [Row.line w ⟨d, text⟩] :=
  ⟨(settled_line text).level, fun _ => List.filter_cons_of_pos h⟩

theorem line_of_neg (h : test (Row.line w ⟨d, text⟩) = false) : Selects test w d [.line text] [] :=
  ⟨(settled_line text).level, fun _ => List.filter_cons_of_neg (by simp [h])⟩

/-- Lines none of which passes the test. -/
theorem lines_of_neg {items : List α} {f : α → String}
    (h : ∀ i ∈ items, test (Row.line w ⟨d, f i⟩) = false) :
    Selects test w d (items.map fun i => .line (f i)) [] := by
  rw [List.map_eq_flatMap]
  exact flatMap_nil fun i hi => line_of_neg (h i hi)

section
variable (hblank : test "" = false)
include hblank

theorem blank : Selects test w d [.blank] [] := by
  refine ⟨fun _ => rfl, fun due => ?_⟩
  show [""].filter test = []
  rw [List.filter_cons_of_neg (by simp [hblank]), List.filter_nil]

theorem gap : Selects test w d [.gap] [] := by
  refine ⟨fun _ => rfl, fun due => ?_⟩
  cases due with
  | true => exact (blank hblank).filter_eq true
  | false => rfl

/-- Blocks that contribute nothing, with gaps before them. -/
theorem spaced {blocks : List (List Step)} (h : ∀ b ∈ blocks, Selects test w d b []) :
    Selects test w d (spaced blocks) [] :=
  flatMap_nil fun b hb => (gap hblank).append (h b hb)

end

theorem braced (hheader : test (Row.line w ⟨d, header ++ " \x7b"⟩) = false)
    (hclose : test (Row.line w ⟨d, "\x7d"⟩) = false) (h : Selects test w (d + 1) body out) :
    Selects test w d (braced header body) out := by
  refine ⟨(settled_braced h.level).level, fun due => ?_⟩
  rw [linesOf_braced w d due h.level, List.cons_append, List.filter_cons_of_neg (by simp [hheader]),
    List.filter_append, h.filter_eq, List.filter_cons_of_neg (by simp [hclose]), List.filter_nil,
    List.append_nil]

/-- What is one level further in. -/
theorem deeper (h : Selects test w (d + 1) steps out) :
    Selects test w d (.indent :: steps ++ [.dedent]) out := by
  refine ⟨fun m => ?_, fun due => ?_⟩
  · rw [Margin.run_append]
    show (Margin.run ⟨m.depth + 1, m.due⟩ steps).depth - 1 = m.depth
    rw [h.level]
    rfl
  · have hdedent (m : Margin) : linesOf w m [.dedent] = [] := rfl
    rw [linesOf_append, hdedent, List.append_nil]
    exact h.filter_eq due

theorem indented (hheader : test (Row.line w ⟨d, header⟩) = false)
    (h : Selects test w (d + 1) body out) : Selects test w d (indented header body) out := by
  refine ⟨level_indented h.level, fun due => ?_⟩
  rw [linesOf_indented, List.filter_cons_of_neg (by simp [hheader]), h.filter_eq]

end Selects

end UmlSkeleton

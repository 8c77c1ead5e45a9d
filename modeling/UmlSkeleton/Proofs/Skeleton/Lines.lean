import UmlSkeleton.Skeleton.Java
import UmlSkeleton.Skeleton.Php
import UmlSkeleton.Skeleton.Python

/-!
# The lines of a block

What a block does not say is shown by looking at all its lines. `EachLine p` says that every line of
some steps satisfies `p`; headers and closing lines do not count. It is taken apart along the ways in
which blocks are put together, down to single texts. Two texts are told apart by a space that only one
of them has, or by how they end.

* `eachLine_braced`, `eachLine_indented`, `eachLine_spaced`, … — one equivalence for each way.
* `infix_braced`, `infix_indented`, `infix_spaced` — where the parts of a block are found in it.
-/

namespace UmlSkeleton

/-- Every line of the steps satisfies `p`. -/
def EachLine (p : String → Prop) (steps : List Step) : Prop := ∀ text, .line text ∈ steps → p text

variable {p : String → Prop} {steps body : List Step} {blocks : List (List Step)}
  {header text : String}

@[simp] theorem eachLine_nil : EachLine p [] := by simp [EachLine]

@[simp] theorem eachLine_line_cons :
    EachLine p (.line text :: steps) ↔ p text ∧ EachLine p steps := by
  simp [EachLine]

/-- Only lines count. -/
theorem eachLine_cons_of_ne (step : Step) (h : ∀ text, step ≠ .line text) :
    EachLine p (step :: steps) ↔ EachLine p steps := by
  refine forall_congr' fun text => ?_
  simp [(h text).symm]

@[simp] theorem eachLine_append {xs ys : List Step} :
    EachLine p (xs ++ ys) ↔ EachLine p xs ∧ EachLine p ys := by
  constructor
  · intro h
    exact ⟨fun t ht => h t (List.mem_append_left _ ht), fun t ht => h t (List.mem_append_right _ ht)⟩
  · rintro ⟨hx, hy⟩ t ht
    rcases List.mem_append.mp ht with ht | ht
    · exact hx t ht
    · exact hy t ht

@[simp] theorem eachLine_flatMap {items : List α} {f : α → List Step} :
    EachLine p (items.flatMap f) ↔ ∀ a ∈ items, EachLine p (f a) := by
  induction items with
  | nil => simp
  | cons a items ih => rw [List.flatMap_cons, eachLine_append, ih, List.forall_mem_cons]

@[simp] theorem eachLine_map_line {items : List α} {f : α → String} :
    EachLine p (items.map fun a => .line (f a)) ↔ ∀ a ∈ items, p (f a) := by
  induction items with
  | nil => simp
  | cons a items ih => rw [List.map_cons, eachLine_line_cons, ih, List.forall_mem_cons]

@[simp] theorem eachLine_braced : EachLine p (braced header body) ↔ EachLine p body := by
  simp [EachLine, braced]

@[simp] theorem eachLine_indented : EachLine p (indented header body) ↔ EachLine p body := by
  simp [EachLine, indented]

@[simp] theorem eachLine_spaced : EachLine p (spaced blocks) ↔ ∀ b ∈ blocks, EachLine p b := by
  rw [spaced, eachLine_flatMap]
  exact forall₂_congr fun _ _ => eachLine_cons_of_ne .gap (by simp)

theorem EachLine.stepsIf {condition : Bool} (h : EachLine p steps) :
    EachLine p (stepsIf condition steps) := by
  cases condition with
  | false => exact eachLine_nil
  | true => exact h

/-! ## Parts of a block -/

theorem infix_braced : body <:+: braced header body := ⟨[.enter _], [.leave _], rfl⟩

theorem infix_indented : body <:+: indented header body := ⟨[.enter _], [.dedent], rfl⟩

theorem infix_spaced {b : List Step} (h : b ∈ blocks) : b <:+: spaced blocks := by
  obtain ⟨before, after, rfl⟩ := List.append_of_mem h
  refine ⟨spaced before ++ [.gap], spaced after, ?_⟩
  simp [spaced]

/-! ## Telling texts apart -/

theorem ne_of_space {s t : String} (ht : ' ' ∉ t.toList) (hs : ' ' ∈ s.toList) : s ≠ t := by
  rintro rfl
  exact ht hs

theorem getLast?_toList_append {s e : String} (he : e ≠ "") :
    (s ++ e).toList.getLast? = e.toList.getLast? := by
  have hne : e.toList ≠ [] := by simpa using he
  rw [String.toList_append, List.getLast?_append, List.getLast?_eq_some_getLast hne, Option.some_or]

theorem append_ne_of_getLast? {s e t : String} (he : e ≠ "")
    (h : e.toList.getLast? ≠ t.toList.getLast?) : s ++ e ≠ t := by
  rintro rfl
  exact h (getLast?_toList_append he).symm

end UmlSkeleton

import Mathlib.Data.List.Forall2
import UmlSkeleton.Proofs.Layout.Lines

/-!
# Layouts that look alike

A view shows less of a text than its lines. Steps look alike if a view shows the same of what they write,
whatever stands below, and if what follows them cannot look different for it. Layouts are put together
from smaller ones, and they look alike as soon as their parts do; so of two layouts that differ here and
there, only these places have to be compared.

A fine view compares steps from one margin. A coarse one shows no blank lines, so it compares them from
any two margins at the same depth.

* `View.Alike` — steps that look alike.
* `View.Alike.append`, `flatMap`, `spaced`, … — one law for each way of putting layouts together.
* `View.alike_coarse`, `View.alike_nil` — steps that are compared with themselves, and with nothing.
-/

namespace UmlSkeleton

/-- What is shown of lines, and which margins make no difference. -/
structure View where
  shown : List String → List String
  near : Margin → Margin → Prop

namespace View

/-- A view that tells margins apart. -/
def fine (shown : List String → List String) : View := ⟨shown, Eq⟩

/-- A view that sees no more of a margin than its depth. -/
def coarse (shown : List String → List String) : View := ⟨shown, fun m n => m.depth = n.depth⟩

/-- Above lines that look the same, these lines look the same. -/
def Same (v : View) (ls ls' : List String) : Prop :=
  ∀ rest rest', v.shown rest = v.shown rest' → v.shown (ls ++ rest) = v.shown (ls' ++ rest')

/-- The steps look alike from margins that make no difference, and lead to such margins. -/
def Alike (v : View) (w : Nat) (xs ys : List Step) : Prop :=
  ∀ m n, v.near m n → v.near (m.run xs) (n.run ys) ∧ v.Same (linesOf w m xs) (linesOf w n ys)

/-- A view that looks at lines one by one shows the same of them wherever they stand. -/
theorem same_of_append {v : View} (h : ∀ xs ys, v.shown (xs ++ ys) = v.shown xs ++ v.shown ys)
    {ls ls' : List String} (heq : v.shown ls = v.shown ls') : v.Same ls ls' := by
  intro rest rest' hrest
  rw [h, h, heq, hrest]

/-- What looks alike from the beginning of a page looks the same on it. -/
theorem Alike.shown_eq {v : View} {w : Nat} {xs ys : List Step} (h : v.Alike w xs ys)
    (hstart : v.near .start .start) :
    v.shown (linesOf w .start xs) = v.shown (linesOf w .start ys) := by
  have hshown := (h .start .start hstart).2 [] [] rfl
  rwa [List.append_nil, List.append_nil] at hshown

/-! ## Putting layouts together -/

section
variable {v : View} {w : Nat} {xs xs' ys ys' : List Step}

theorem Alike.nil : v.Alike w [] [] := fun _ _ h => ⟨h, fun _ _ hrest => hrest⟩

theorem Alike.append (hx : v.Alike w xs xs') (hy : v.Alike w ys ys') :
    v.Alike w (xs ++ ys) (xs' ++ ys') := by
  intro m n h
  obtain ⟨hnear, hsame⟩ := hx m n h
  obtain ⟨hnear', hsame'⟩ := hy _ _ hnear
  refine ⟨by rwa [Margin.run_append, Margin.run_append], ?_⟩
  intro rest rest' hrest
  rw [linesOf_append, linesOf_append, List.append_assoc, List.append_assoc]
  exact hsame _ _ (hsame' rest rest' hrest)

theorem Alike.flatMap {items : List α} {f g : α → List Step}
    (h : ∀ a ∈ items, v.Alike w (f a) (g a)) : v.Alike w (items.flatMap f) (items.flatMap g) := by
  induction items with
  | nil => exact nil
  | cons a items ih =>
      obtain ⟨ha, hmore⟩ := List.forall_mem_cons.mp h
      rw [List.flatMap_cons, List.flatMap_cons]
      exact ha.append (ih hmore)

theorem Alike.stepsIf {condition : Bool} (h : v.Alike w xs ys) :
    v.Alike w (stepsIf condition xs) (stepsIf condition ys) := by
  cases condition with
  | false => exact nil
  | true => exact h

theorem Alike.braced {header : String} (h : v.Alike w xs ys)
    (henter : v.Alike w [.enter (header ++ " \x7b")] [.enter (header ++ " \x7b")])
    (hleave : v.Alike w [.leave "\x7d"] [.leave "\x7d"]) :
    v.Alike w (braced header xs) (braced header ys) :=
  (henter.append h).append hleave

theorem Alike.indented {header : String} (h : v.Alike w xs ys)
    (henter : v.Alike w [.enter header] [.enter header]) (hdedent : v.Alike w [.dedent] [.dedent]) :
    v.Alike w (indented header xs) (indented header ys) :=
  (henter.append h).append hdedent

/-- Blocks that look alike, one by one, with a separator before each. -/
theorem Alike.separated {separator : List Step} {bs cs : List (List Step)}
    (hseparator : v.Alike w separator separator) (h : List.Forall₂ (v.Alike w) bs cs) :
    v.Alike w (bs.flatMap (separator ++ ·)) (cs.flatMap (separator ++ ·)) := by
  induction h with
  | nil => exact nil
  | cons hb _ ih => exact (hseparator.append hb).append ih

theorem Alike.spaced {bs cs : List (List Step)} (h : List.Forall₂ (v.Alike w) bs cs)
    (hgap : v.Alike w [.gap] [.gap]) : v.Alike w (spaced bs) (spaced cs) :=
  hgap.separated h

/-- Steps look like themselves if each of them does. -/
theorem alike_of_forall (h : ∀ s ∈ xs, v.Alike w [s] [s]) : v.Alike w xs xs := by
  induction xs with
  | nil => exact Alike.nil
  | cons s xs ih =>
      obtain ⟨hs, hmore⟩ := List.forall_mem_cons.mp h
      exact hs.append (ih hmore)

theorem forall₂_map {items : List α} {f g : α → List Step} (h : ∀ a ∈ items, v.Alike w (f a) (g a)) :
    List.Forall₂ (v.Alike w) (items.map f) (items.map g) :=
  List.forall₂_map_left_iff.mpr (List.forall₂_map_right_iff.mpr (List.forall₂_same.mpr h))

end

/-! ## Fine views -/

/-- From one margin the same steps write the same lines. -/
theorem alike_fine {shown : List String → List String}
    (h : ∀ xs ys, shown (xs ++ ys) = shown xs ++ shown ys) (w : Nat) (steps : List Step) :
    (fine shown).Alike w steps steps := by
  rintro m n ⟨⟩
  exact ⟨rfl, same_of_append h rfl⟩

/-! ## Coarse views -/

section
variable {shown : List String → List String} {w : Nat} {steps : List Step}

/-- Level steps of which nothing is shown look like no steps at all. -/
theorem alike_nil (hlevel : Level steps) (h : ∀ m rest, shown (linesOf w m steps ++ rest) = shown rest) :
    (coarse shown).Alike w steps [] := by
  intro m n hdepth
  refine ⟨(hlevel m).trans hdepth, ?_⟩
  intro rest rest' hrest
  show shown (linesOf w m steps ++ rest) = shown rest'
  rw [h]
  exact hrest

/-- Where no blank lines are shown, steps look like themselves if what they say does. -/
theorem alike_coarse (hblank : ∀ rest, shown ("" :: rest) = shown rest)
    (h : ∀ s ∈ steps, ∀ text ∈ s.text?, ∀ d,
      (coarse shown).Same [Row.line w ⟨d, text⟩] [Row.line w ⟨d, text⟩]) :
    (coarse shown).Alike w steps steps := by
  refine alike_of_forall fun s hs => ?_
  rintro ⟨depth, due⟩ ⟨depth', due'⟩ hdepth
  have hdepth : depth = depth' := hdepth
  subst hdepth
  have htext := h s hs
  cases s with
  | line text => exact ⟨rfl, htext text rfl depth⟩
  | enter text => exact ⟨rfl, htext text rfl depth⟩
  | leave text => exact ⟨rfl, htext text rfl (depth - 1)⟩
  | blank =>
      refine ⟨rfl, fun rest rest' hrest => ?_⟩
      show shown ("" :: rest) = shown ("" :: rest')
      rw [hblank, hblank]
      exact hrest
  | gap =>
      -- Whether the gap leaves a blank line depends on the margin, and is not shown.
      have hgap (due : Bool) (rest : List String) :
          shown (linesOf w ⟨depth, due⟩ [.gap] ++ rest) = shown rest := by
        cases due with
        | true => exact hblank rest
        | false => rfl
      refine ⟨rfl, fun rest rest' hrest => ?_⟩
      show shown _ = shown _
      rw [hgap, hgap]
      exact hrest
  | indent => exact ⟨rfl, fun _ _ hrest => hrest⟩
  | dedent => exact ⟨rfl, fun _ _ hrest => hrest⟩

end

end View

end UmlSkeleton

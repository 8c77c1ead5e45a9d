import UmlSkeleton.Proofs.Skeleton.SingleLines

/-!
# Indentation follows nesting

The width of an indentation is the last thing that is asked for when a skeleton is written: all else is
settled in its rows. In Java and in PHP the depth of a row is no choice either. Every section ends at the
depth at which it began, and every block stands in braces, so a row is as deep as braces are open before
it.

* `layout_indent` — the layout does not know the width.
* `level_layout` — a skeleton ends at the depth at which it began.
* `indentation_follows_nesting` — the same rows at every width, and in Java and PHP they follow their
  braces.
-/

namespace UmlSkeleton.Model

open Text

theorem layout_indent (m : Model) (o : Options) (target : Target) (width : Nat) :
    m.layout { o with indent := width } target = m.layout o target := by
  cases target <;> rfl

theorem level_layout (m : Model) (o : Options) (target : Target) : Level (m.layout o target) := by
  rw [layout_eq]
  refine target.level_prologue.append (level_flatMap fun s hs => ?_)
  exact target.level_separator.append (m.settled_sections o target s hs).level

/-- **Nesting.** If no text of a model has a line end or a brace in it, its skeletons have the same rows
at every width of an indentation, and each line is one of them: spaces for its depth and then its text, or
nothing. In Java and in PHP the depth of a row is the number of braces that are open before it, one less
if it starts with a closing brace; never are more closed than opened, and none is left open. -/
theorem indentation_follows_nesting {m : Model} (h : ∀ t ∈ m.texts, Without isFraming t) (o : Options)
    (target : Target) :
    ∃ rs : List Row,
      (∀ width, lines (m.skeleton { o with indent := width } target) = rs.map (·.line width)) ∧
        (target ≠ .python → FollowsBraces rs) := by
  have hwritten := forall_written h
  have hsingle : ∀ t ∈ m.written, SingleLine t := fun t ht =>
    without_isLineEnd_iff.mp (Without.of_isFraming isFraming_of_isLineEnd (hwritten t ht))
  refine ⟨rows .start (m.layout o target), fun width => ?_, fun htarget => ?_⟩
  · rw [lines_skeleton hsingle, layout_indent]
    rfl
  · exact (inBraces_layout (fun _ hc => hc) hwritten o htarget).followsBraces (m.level_layout o target)

/-- A dog that is an animal, has a name and barks. -/
theorem nesting_of_dog :
    let m : Model := ⟨[⟨1, "Animal", [], []⟩, ⟨2, "Dog", [⟨"name", ⟨"string"⟩, .ofText "private"⟩],
      [⟨"bark", ⟨"void"⟩, .ofText "public", []⟩]⟩], [⟨2, 1, .known .generalization, none, none⟩]⟩
    (∀ t ∈ m.texts, Without isFraming t) ∧
      ∃ rs : List Row,
        (∀ width, lines (m.skeleton { Options.default with indent := width } .java) =
            rs.map (·.line width)) ∧ FollowsBraces rs := by
  intro m
  have htexts : ∀ t ∈ m.texts, Without isFraming t := by decide
  obtain ⟨rs, hlines, hbraces⟩ := indentation_follows_nesting htexts .default .java
  exact ⟨htexts, rs, hlines, hbraces (by decide)⟩

end UmlSkeleton.Model

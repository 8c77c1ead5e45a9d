import UmlSkeleton.Proofs.Python.Paragraphs
import UmlSkeleton.Proofs.Skeleton.Members
import UmlSkeleton.Proofs.Skeleton.SingleLines

/-!
# Blank lines separate siblings

A blank line in a skeleton comes from a gap, and whether a gap writes one is decided by a flag that every step
sets or clears. Blocks are written where no gap is due and leave one due, in every target and for all members
that a class may lack; so in the whole text blank lines stand between siblings and nowhere else.

* `Model.tidy_skeleton` — Java and PHP.
* `Model.paged_skeleton` — Python, where two blank lines stand between sections.
* `Model.blank_lines` — both, and one blank line between the members of a class.
-/

namespace UmlSkeleton.Model

open Python (isBlank isHeader isHeader_line)
open Text

theorem neatBelow_sections (m : Model) (o : Options) :
    ∀ s ∈ m.sections o .python, Python.NeatBelow s := by
  have htrailer : Python.NeatBelow (m.trailer .python) := by
    apply Neat.lines
    apply Python.paragraph_of_quiet (by simp [trailerLines])
    intro text htext
    obtain ⟨rest, rfl⟩ := exists_of_mem_trailerLines htext
    exact ⟨(Python.flush_comment rest).isBlank, (Python.quiet_comment rest).2⟩
  intro s hs
  rcases List.mem_append.mp hs with hs | hs
  · obtain ⟨c, -, rfl⟩ := List.mem_map.mp hs
    exact Python.neatBelow_classBlock o _ c
  · split at hs
    · rw [List.mem_singleton.mp hs]
      exact htrailer
    · cases hs

/-- Where blocks stand in braces, a layout is tidy. Only the trailer may end in a brace. -/
theorem tidy_layout (m : Model) (o : Options) {target : Target}
    (hseparator : target.dialect.separator = [.gap])
    (hprologue : NeatIfAny endsOpening isClosing target.dialect.prologue)
    (hblock : ∀ c, Neat endsOpening isClosing (m.block o target c)) (hcomment : Says target.comment) :
    Tidy endsOpening isClosing (rowTexts .start (m.layout o target)) := by
  have hfront : NeatIfAny endsOpening isClosing
      (target.dialect.prologue ++ spaced (m.classes.map (m.block o target))) :=
    hprologue.append_spaced (List.forall_mem_map.mpr fun c _ => hblock c)
  have hlayout : m.layout o target = target.dialect.prologue ++
      spaced (m.classes.map (m.block o target)) ++ stepsIf o.trailer (.gap :: m.trailer target) := by
    rw [layout, hseparator, spaced, List.flatMap_map]
    rfl
  have htexts : ∀ t ∈ rowTexts .start (m.trailer target), Says t := by
    rw [trailer, rowTexts_lines]
    intro text htext
    obtain ⟨rest, rfl⟩ := exists_of_mem_trailerLines htext
    exact says_append_left hcomment rest
  have hne : rowTexts .start (m.trailer target) ≠ [] := by
    rw [trailer, rowTexts_lines]
    exact List.cons_ne_nil _ _
  rw [hlayout]
  cases o.trailer with
  | false =>
      rw [stepsIf, if_neg Bool.false_ne_true, List.append_nil]
      exact hfront.tidy
  | true =>
      exact hfront.tidy_append_gap (tidy_of_not_blank fun t ht => (htexts t ht).isBlank) hne
        fun t ht => (htexts t (List.mem_of_head? ht)).isClosing

/-- The block of a class begins where a page begins. -/
theorem exists_layout_eq (m : Model) (o : Options) (target : Target) {c : Class} (hc : c ∈ m.classes) :
    ∃ front rest, m.layout o target = front ++ m.block o target c ++ rest ∧
      Margin.run .start front = .start := by
  obtain ⟨before, after, hclasses⟩ := List.append_of_mem hc
  have hbefore : Level (before.flatMap fun d => target.dialect.separator ++ m.block o target d) :=
    level_flatMap fun d _ => target.level_separator.append (settled_block target o _ d).level
  refine ⟨target.dialect.prologue ++
    (before.flatMap fun d => target.dialect.separator ++ m.block o target d) ++ target.dialect.separator,
    (after.flatMap fun d => target.dialect.separator ++ m.block o target d) ++
      stepsIf o.trailer (target.dialect.separator ++ m.trailer target), ?_, ?_⟩
  · rw [layout, hclasses, List.flatMap_append, List.flatMap_cons]
    simp only [List.append_assoc]
    rfl
  · rw [Margin.run_append, target.run_separator, target.level_prologue.append hbefore]
    rfl

section
variable {m : Model} (h : ∀ t ∈ m.written, SingleLine t)
include h

/-- The lines of the block of a class are found in a skeleton as they are written on a page of their own. -/
theorem infix_lines_block (o : Options) (target : Target) {c : Class} (hc : c ∈ m.classes) :
    linesOf o.indent .start (m.block o target c) <:+: lines (m.skeleton o target) := by
  obtain ⟨front, rest, hlayout, hmargin⟩ := m.exists_layout_eq o target hc
  have hinfix : linesOf o.indent (Margin.run .start front) (m.block o target c) <:+:
      linesOf o.indent .start (front ++ m.block o target c ++ rest) := infix_linesOf ..
  rwa [hmargin, ← hlayout, ← lines_skeleton h] at hinfix

/-- A skeleton in Java or PHP is tidy. -/
theorem tidy_skeleton (o : Options) {target : Target} (htarget : target ≠ .python) :
    Tidy endsOpening isClosing (lines (m.skeleton o target)) := by
  rw [lines_skeleton h]
  apply Tidy.linesOf (endsOpening_line o.indent) (isClosing_line o.indent)
  have hcomment : Says "//" := by decide
  cases target with
  | java => exact m.tidy_layout o rfl NeatIfAny.nil (fun c => Java.neat_classBlock o _ c) hcomment
  | php =>
      have hopening : Paragraph endsOpening isClosing ["<?php"] := by
        refine paragraph_of_says (by simp) ?_ fun l hl => ?_
        · rw [List.forall_mem_singleton]
          decide
        · cases hl
          decide
      exact m.tidy_layout o rfl (.inr (.lines hopening)) (fun c => Php.neat_classBlock o _ c) hcomment
  | python => exact absurd rfl htarget

/-- A skeleton in Python is a first line and sections with two blank lines before each. -/
theorem paged_skeleton (o : Options) :
    Python.Paged "from typing import Any, List, Optional" ((m.sections o .python).map (linesOf o.indent .start))
      (lines (m.skeleton o .python)) := by
  have hparagraph : ∀ ls ∈ (m.sections o .python).map (linesOf o.indent .start),
      Paragraph isHeader (fun _ => false) ls := by
    rw [List.forall_mem_map]
    exact fun s hs => ((m.neatBelow_sections o s hs).paragraph 0).linesOf (isHeader_line o.indent) fun _ => rfl
  have himport : Paragraph isHeader (fun _ => false) ["from typing import Any, List, Optional"] := by
    apply Python.paragraph_of_quiet (by simp)
    rw [List.forall_mem_singleton]
    decide
  have heq : lines (m.skeleton o .python) = "from typing import Any, List, Optional" ::
      ((m.sections o .python).map (linesOf o.indent .start)).flatMap ("" :: "" :: ·) := by
    have hprologue : linesOf o.indent .start Target.python.dialect.prologue =
        ["from typing import Any, List, Optional"] := congrArg ([·]) (Row.line_margin ..)
    rw [lines_skeleton h, layout_eq, linesOf_append, hprologue,
      ← linesOf_two_blanks o.indent (m.neatBelow_sections o)]
    rfl
  refine ⟨heq, fun ls hls => ⟨(hparagraph ls hls).ne_nil, (hparagraph ls hls).toTidy⟩, ?_, ?_⟩
  · rw [heq]
    exact isChain_two_blanks (by decide) himport hparagraph
  · rw [heq, List.forall_mem_cons, List.forall_mem_flatMap]
    refine ⟨himport.eq_empty _ (List.mem_singleton_self _), fun ls hls => ?_⟩
    rw [List.forall_mem_cons, List.forall_mem_cons]
    exact ⟨fun _ => rfl, fun _ => rfl, (hparagraph ls hls).eq_empty⟩

end

/-- **Blank lines.** If nothing that is written of a model has a line end in it, blank lines separate
siblings only. A Java or PHP skeleton neither begins nor ends with one, none follows another or the opening of
a block or precedes a closing brace, and between the members of each class there is exactly one. A Python
skeleton has two between its sections, and in them blank lines are single and never below a header. Blank
lines have no spaces. -/
theorem blank_lines {m : Model} (h : ∀ t ∈ m.written, SingleLine t) (o : Options) :
    (∀ target, target ≠ .python → Tidy endsOpening isClosing (lines (m.skeleton o target))) ∧
      (∀ c ∈ m.classes,
        SetApart ((Java.members o (m.inheritance.parent? c.name) c).map (linesOf o.indent ⟨1, false⟩))
          (lines (m.skeleton o .java)) ∧
        SetApart ((Php.members o (m.inheritance.parent? c.name) c).map (linesOf o.indent ⟨1, false⟩))
          (lines (m.skeleton o .php))) ∧
      Python.Paged "from typing import Any, List, Optional"
        ((m.sections o .python).map (linesOf o.indent .start)) (lines (m.skeleton o .python)) := by
  refine ⟨fun target htarget => tidy_skeleton h o htarget, fun c hc => ⟨?_, ?_⟩, paged_skeleton h o⟩
  · exact (Java.setApart_classBlock o _ c o.indent).mono (infix_lines_block h o .java hc)
  · exact (Php.setApart_classBlock o _ c o.indent).mono (infix_lines_block h o .php hc)

/-- A dog that is an animal, has a name and barks. -/
theorem blank_lines_of_dog :
    let m : Model := ⟨[⟨1, "Animal", [], []⟩, ⟨2, "Dog", [⟨"name", ⟨"string"⟩, .ofText "private"⟩],
      [⟨"bark", ⟨"void"⟩, .ofText "public", []⟩]⟩], [⟨2, 1, .known .generalization, none, none⟩]⟩
    (∀ t ∈ m.written, SingleLine t) ∧ Tidy endsOpening isClosing (lines (m.skeleton .default .php)) ∧
      (lines (m.skeleton .default .python)).IsChain fun a b => isHeader a = true → isBlank b = false := by
  intro m
  have hwritten : ∀ t ∈ m.written, SingleLine t := by decide
  obtain ⟨htidy, -, hpython⟩ := blank_lines hwritten .default
  exact ⟨hwritten, htidy .php (by decide), hpython.below_header⟩

end UmlSkeleton.Model

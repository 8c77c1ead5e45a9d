import UmlSkeleton.Proofs.Layout.Lines
import UmlSkeleton.Proofs.Skeleton.Factorisation
import UmlSkeleton.Proofs.Skeleton.Members

/-!
# Accessors are inserted

Accessors of PHP classes go through the same page as all else in a skeleton: each moves the margin, and leaves
it as it found it. So asking for them inserts their texts, in one place for each class, and changes nothing
around it: the blank line after the constructor is the one of the first accessor or, without any, of the first
stub. Java and Python do not ask.

* `Php.frontText`, `Php.backText` — the block of a class before that place and after it.
* `Php.accessorsText` — what is inserted.
* `Model.accessors_inserted` — a skeleton with accessors is the one without them, with these texts inserted.
-/

namespace UmlSkeleton

open Python (isBlank)

namespace Php

/-! ## The block of a class, cut after the constructor -/

/-- The text of a member in the block of its class. -/
def memberText (o : Options) (steps : List Step) : String := textOfRows o.indent (rows ⟨1, false⟩ steps)

/-- The block of a class as far as its constructor. -/
def opening (o : Options) (parent : Option String) (c : Class) : List Step :=
  docBlock o (("Class " ++ c.name) :: parent.toList.map ("@extends " ++ ·)) ++
    .enter (header parent c ++ " \x7b") :: c.properties.flatMap (property o) ++ [.gap]

/-- The text of the block of a class down to the line that closes the constructor. -/
def frontText (o : Options) (parent : Option String) (c : Class) : String :=
  layOut o.indent (opening o parent c) ++ memberText o (constructor o parent c)

/-- A getter and a setter for each property in order, with a blank line before each. -/
def accessorsText (o : Options) (c : Class) : String :=
  String.join (c.properties.flatMap fun p =>
    ["\n" ++ memberText o (getter o p), "\n" ++ memberText o (setter o p)])

/-- The text of the rest: the stubs, with a blank line before each, and the line that closes the block. -/
def backText (o : Options) (c : Class) : String :=
  String.join (c.methods.map fun f => "\n" ++ memberText o (method o f)) ++ "\x7d\n"

theorem run_opening (o : Options) (parent : Option String) (c : Class) :
    Margin.run .start (opening o parent c) = ⟨1, false⟩ := by
  have hproperties : Level (c.properties.flatMap (property o)) :=
    level_flatMap fun p _ => level_property o p
  have hdoc := level_docBlock o (("Class " ++ c.name) :: parent.toList.map ("@extends " ++ ·)) .start
  rw [opening, Margin.run_append, Margin.run_append, Margin.run_cons]
  show (⟨(Margin.run ⟨(Margin.run .start _).depth + 1, false⟩ _).depth, false⟩ : Margin) = _
  rw [hproperties, hdoc]
  rfl

theorem settled_accessors (o : Options) (c : Class) : ∀ b ∈ accessors o c, Settled b := by
  intro b hb
  apply settled_members o none c
  rw [members]
  exact List.mem_append_left _ (List.mem_cons_of_mem _ hb)

/-- The block of a class, piece by piece. -/
theorem classBlock_eq (o : Options) (parent : Option String) (c : Class) :
    classBlock o parent c = opening o parent c ++ constructor o parent c ++ spaced (accessors o c) ++
      spaced (c.methods.map (method o)) ++ [.leave "\x7d"] := by
  simp only [classBlock, braced, members, spaced, opening, List.flatMap_cons, List.flatMap_append,
    List.cons_append, List.append_assoc, List.nil_append]

theorem join_accessors (o : Options) (c : Class) :
    String.join ((accessors o c).map fun b => "\n" ++ memberText o b) =
      if o.phpAccessors then accessorsText o c else "" := by
  unfold accessors accessorsText
  cases o.phpAccessors with
  | true =>
      rw [if_pos rfl, if_pos rfl, List.map_flatMap]
      rfl
  | false => rfl

theorem layOut_classBlock (o : Options) (parent : Option String) (c : Class) :
    layOut o.indent (classBlock o parent c) =
      frontText o parent c ++ (if o.phpAccessors then accessorsText o c else "") ++ backText o c := by
  have hconstructor : Margin.run ⟨1, false⟩ (constructor o parent c) = ⟨1, true⟩ :=
    settled_constructor o parent c _
  have haccessors : ∀ b ∈ accessors o c, Margin.run ⟨1, false⟩ b = ⟨1, true⟩ :=
    fun b hb => settled_accessors o c b hb _
  have hmethods : ∀ b ∈ c.methods.map (method o), Margin.run ⟨1, false⟩ b = ⟨1, true⟩ := by
    rw [List.forall_mem_map]
    exact fun f _ => settled_method o f _
  have hclose : textOfRows o.indent (rows ⟨1, true⟩ [.leave "\x7d"]) = "\x7d\n" := textOfRows_margin ..
  -- The accessors begin where the constructor ends, and end where the first stub begins.
  rw [layOut, classBlock_eq]
  simp only [rows_append, Margin.run_append, run_opening, hconstructor, run_spaced haccessors,
    run_spaced hmethods, textOfRows_append, textOfRows_spaced haccessors, textOfRows_spaced hmethods, hclose]
  rw [← join_accessors, frontText, backText, List.map_map]
  simp only [String.append_assoc]
  rfl

/-- Of the lines of an accessor none is blank, and there are some. -/
theorem isBlank_accessor (o : Options) (p : Property) : ∀ b ∈ [getter o p, setter o p],
    memberText o b = String.join ((linesOf o.indent ⟨1, false⟩ b).map (· ++ "\n")) ∧
      linesOf o.indent ⟨1, false⟩ b ≠ [] ∧ ∀ l ∈ linesOf o.indent ⟨1, false⟩ b, isBlank l = false := by
  have hmember : ∀ b ∈ [getter o p, setter o p], IsMember b :=
    List.forall_mem_cons.mpr ⟨isMember_getter o p, List.forall_mem_singleton.mpr (isMember_setter o p)⟩
  exact fun b hb => ⟨textOfRows_eq_join .., (hmember b hb).linesOf_ne_nil _ 1, (hmember b hb).isBlank_of_mem _ _⟩

/-- Before the place where accessors go stands the line that closes the constructor. -/
theorem exists_frontText_eq (o : Options) (parent : Option String) (c : Class) :
    ∃ text, frontText o parent c = text ++ (Row.line o.indent ⟨1, "\x7d"⟩ ++ "\n") := by
  have hsettled := settled_constructor o parent c
  unfold constructor braced at hsettled
  rw [← List.append_assoc] at hsettled
  obtain ⟨text, htext⟩ := hsettled.exists_textOfRows_leave o.indent ⟨1, false⟩
  refine ⟨layOut o.indent (opening o parent c) ++ text, ?_⟩
  unfold frontText memberText constructor braced
  rw [← List.append_assoc, htext, String.append_assoc]

end Php

/-! ## Skeletons -/

namespace Model

/-- A PHP skeleton of the model with a text inserted into the block of each class, after its constructor. -/
def phpWith (m : Model) (o : Options) (inserted : Class → String) : String :=
  "<?php\n" ++
    String.join (m.classes.map fun c => "\n" ++
      (Php.frontText o (m.inheritance.parent? c.name) c ++ inserted c ++ Php.backText o c)) ++
    if o.trailer then "\n" ++ m.trailerText o .php else ""

theorem skeleton_php_eq (m : Model) (o : Options) :
    m.skeleton o .php = m.phpWith o fun c => if o.phpAccessors then Php.accessorsText o c else "" := by
  have hblocks : (m.classes.map (m.blockText o .php)).map ("\n" ++ ·) = m.classes.map fun c => "\n" ++
      (Php.frontText o (m.inheritance.parent? c.name) c ++
        (if o.phpAccessors then Php.accessorsText o c else "") ++ Php.backText o c) := by
    rw [List.map_map]
    exact List.map_congr_left fun c _ => congrArg ("\n" ++ ·) (Php.layOut_classBlock o _ c)
  rw [skeleton_php, sectionTexts, List.map_append, String.join_append, hblocks, phpWith, String.append_assoc]
  cases o.trailer with
  | true =>
      rw [if_pos rfl, if_pos rfl, List.map_singleton, String.join_cons, String.join_nil, String.append_empty]
  | false => rfl

/-- **Insertion.** Whether accessors are asked for makes no difference to Java and Python. A PHP skeleton with
accessors is the one without them, but for the accessors of each class, which stand in its block right below the
line that closes the constructor: for each property in order a getter and a setter, each after one blank line
and with none among the lines that it is written in. -/
theorem accessors_inserted (m : Model) (o : Options) :
    (∀ accessors, m.skeleton { o with phpAccessors := accessors } .java = m.skeleton o .java) ∧
      (∀ accessors, m.skeleton { o with phpAccessors := accessors } .python = m.skeleton o .python) ∧
      m.skeleton { o with phpAccessors := false } .php = m.phpWith o (fun _ => "") ∧
      m.skeleton { o with phpAccessors := true } .php = m.phpWith o (Php.accessorsText o) ∧
      (∀ parent c, ∃ text, Php.frontText o parent c = text ++ (Row.line o.indent ⟨1, "\x7d"⟩ ++ "\n")) ∧
      ∀ p, ∀ b ∈ [Php.getter o p, Php.setter o p],
        Php.memberText o b = String.join ((linesOf o.indent ⟨1, false⟩ b).map (· ++ "\n")) ∧
          linesOf o.indent ⟨1, false⟩ b ≠ [] ∧ ∀ l ∈ linesOf o.indent ⟨1, false⟩ b, isBlank l = false :=
  ⟨fun _ => rfl, fun _ => rfl, skeleton_php_eq m _, skeleton_php_eq m _, Php.exists_frontText_eq o,
    Php.isBlank_accessor o⟩

end Model

end UmlSkeleton

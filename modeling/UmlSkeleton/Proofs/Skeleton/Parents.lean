import UmlSkeleton.Proofs.Model.KeyParent
import UmlSkeleton.Proofs.Skeleton.Lines
import UmlSkeleton.Proofs.Skeleton.Sections

/-!
# What a skeleton says about parents

The block of a class names a parent in its header, calls the constructor of the parent, and in Java
and Python says how an object is shown. This module shows that it does all of it when the class has a
parent and none of it otherwise, whatever the members are called, and that in a model without defects
the parent is the one that the keys give (`Model.block_followsParent`).

For the blocks of classes without a parent, `Orphan` says of each line that it is none of the lines
which only a parent gives rise to.
-/

namespace UmlSkeleton

/-- The text of a step that opens a block. -/
def Step.opening? : Step → Option String
  | .enter text => some text
  | _ => none

/-- The first line of the steps that opens a block. For a class that is its header. -/
def headerOf (steps : List Step) : Option String := steps.findSome? Step.opening?

/-- The header of a class with this name and this parent, to the end of the line. -/
def Target.classHeader (name : String) : Target → Option String → String
  | .java, some parent => "public class " ++ name ++ " extends " ++ parent ++ " \x7b"
  | .java, none => "public class " ++ name ++ " \x7b"
  | .php, some parent => "class " ++ name ++ " extends " ++ parent ++ " \x7b"
  | .php, none => "class " ++ name ++ " \x7b"
  | .python, some parent => "class " ++ name ++ "(" ++ parent ++ "):"
  | .python, none => "class " ++ name ++ ":"

/-- The steps have a line that calls the constructor of the parent. -/
def Target.CallsParent (steps : List Step) : Target → Prop
  | .java => .line "super();" ∈ steps ∨ .line "super(); // Call parent class constructor" ∈ steps
  | .php => .line "parent::__construct();" ∈ steps
  | .python => .line "super().__init__()" ∈ steps

/-- The steps override `toString`. -/
def OverridesToString (steps : List Step) : Prop :=
  [.line "@Override", .enter "public String toString() \x7b"] <:+: steps

/-- The steps have a `__str__` that returns a text. The stub of a method has the same header if the
model calls the method so and gives it the type of a text, but it returns none. -/
def ShowsItself (steps : List Step) : Prop :=
  ∃ text, [.enter "def __str__(self) -> str:", .line ("return f\"" ++ text ++ "\"")] <:+: steps

/-! ## Headers -/

theorem headerOf_braced (header : String) (body : List Step) :
    headerOf (braced header body) = some (header ++ " \x7b") := rfl

theorem headerOf_lines_append {steps more : List Step} (h : ∀ s ∈ steps, ∃ text, s = .line text) :
    headerOf (steps ++ more) = headerOf more := by
  have hnone : steps.findSome? Step.opening? = none := by
    rw [List.findSome?_eq_none_iff]
    intro s hs
    obtain ⟨text, rfl⟩ := h s hs
    rfl
  rw [headerOf, List.findSome?_append, hnone, Option.none_or, headerOf]

/-- In every target the header of a block is that of the class and its parent. -/
theorem headerOf_block (target : Target) (o : Options) (parent : Option String) (c : Class) :
    headerOf (target.dialect.block o parent c) = some (target.classHeader c.name parent) := by
  cases target with
  | java =>
      cases parent with
      | none =>
          show some ("public class " ++ c.name ++ "" ++ " \x7b") = _
          rw [String.append_empty]
          rfl
      | some p =>
          show some ("public class " ++ c.name ++ (" extends " ++ p) ++ " \x7b") = _
          rw [← String.append_assoc]
          rfl
  | php =>
      show headerOf (Php.docBlock o _ ++ braced (Php.header parent c) _) = _
      rw [headerOf_lines_append Php.exists_line_of_mem_docBlock, headerOf_braced]
      cases parent with
      | none =>
          show some ("class " ++ c.name ++ "" ++ " \x7b") = _
          rw [String.append_empty]
          rfl
      | some p =>
          show some ("class " ++ c.name ++ (" extends " ++ p) ++ " \x7b") = _
          rw [← String.append_assoc]
          rfl
  | python =>
      cases parent with
      | none =>
          show some ("class " ++ c.name ++ "" ++ ":") = _
          rw [String.append_empty]
          rfl
      | some p =>
          show some ("class " ++ c.name ++ ("(" ++ p ++ ")") ++ ":") = _
          have hclose : "):" = ")" ++ ":" := rfl
          show _ = some ("class " ++ c.name ++ "(" ++ p ++ "):")
          simp only [hclose, String.append_assoc]

/-! ## Java -/

namespace Java

/-- The line is none of those that a parent gives rise to. -/
def Orphan (text : String) : Prop :=
  text ≠ "super();" ∧ text ≠ "super(); // Call parent class constructor" ∧ text ≠ "@Override"

/-- A statement with a space in it is an orphan, whatever names it is made of. -/
theorem orphan_statement {s : String} (h : ' ' ∈ s.toList) : Orphan (s ++ ";") := by
  have hspace : ' ' ∈ (s ++ ";").toList := by simp [h]
  refine ⟨ne_of_space (by decide) hspace, ?_, ne_of_space (by decide) hspace⟩
  exact append_ne_of_getLast? (by decide) (by decide)

theorem eachLine_orphan (o : Options) (c : Class) : EachLine Orphan (classBlock o none c) := by
  have hmembers : ∀ b ∈ members o none c, EachLine Orphan b := by
    intro b hb
    simp only [members, List.mem_append, List.mem_cons, List.mem_flatMap, List.mem_map,
      Option.toList_none, List.not_mem_nil, false_and, exists_false, or_false] at hb
    rcases hb with (rfl | ⟨p, -, rfl | rfl⟩) | ⟨m, -, rfl⟩
    · rw [constructor, eachLine_append, eachLine_braced]
      exact ⟨EachLine.stepsIf (by simp [Orphan]), eachLine_nil⟩
    · rw [getter, eachLine_braced, eachLine_line_cons]
      exact ⟨orphan_statement (by simp), eachLine_nil⟩
    · rw [setter, eachLine_braced, eachLine_line_cons]
      exact ⟨orphan_statement (by simp), eachLine_nil⟩
    · rw [method, eachLine_braced, eachLine_append, eachLine_append]
      exact ⟨⟨EachLine.stepsIf (by simp [Orphan]), by simp [Orphan]⟩,
        EachLine.stepsIf (by simp [Orphan])⟩
  rw [classBlock, eachLine_braced, eachLine_append, eachLine_flatMap, eachLine_spaced]
  refine ⟨?_, hmembers⟩
  intro p _
  rw [field, eachLine_line_cons]
  exact ⟨orphan_statement (by simp), eachLine_nil⟩

theorem infix_classBlock {o : Options} {parent : Option String} {c : Class} {b : List Step}
    (hb : b ∈ members o parent c) : b <:+: classBlock o parent c :=
  (infix_spaced hb).trans ((List.suffix_append _ _).isInfix.trans infix_braced)

theorem callsParent_iff (o : Options) (parent : Option String) (c : Class) :
    Target.java.CallsParent (classBlock o parent c) ↔ parent.isSome = true := by
  cases parent with
  | none =>
      refine ⟨?_, fun h => by cases h⟩
      rintro (h | h)
      · exact absurd rfl (eachLine_orphan o c _ h).1
      · exact absurd rfl (eachLine_orphan o c _ h).2.1
  | some p =>
      refine ⟨fun _ => rfl, fun _ => ?_⟩
      have hblock : constructor o (some p) c <:+: classBlock o (some p) c :=
        infix_classBlock (List.mem_cons_self ..)
      cases hdocs : o.docs with
      | false => exact .inl (hblock.subset (by simp [constructor, stepsIf, braced, hdocs]))
      | true => exact .inr (hblock.subset (by simp [constructor, stepsIf, braced, hdocs]))

theorem overridesToString_iff (o : Options) (parent : Option String) (c : Class) :
    OverridesToString (classBlock o parent c) ↔ parent.isSome = true := by
  cases parent with
  | none =>
      refine ⟨?_, fun h => by cases h⟩
      intro h
      exact absurd rfl (eachLine_orphan o c _ (h.subset (by simp))).2.2
  | some p =>
      refine ⟨fun _ => rfl, fun _ => ?_⟩
      have hblock : toStringMethod p c <:+: classBlock o (some p) c :=
        infix_classBlock (by simp [members])
      exact List.IsInfix.trans ⟨[], _, rfl⟩ hblock

end Java

/-! ## PHP -/

namespace Php

theorem eachLine_docBlock {p : String → Prop} {o : Options} {texts : List String}
    (hbegin : p "/**") (hend : p " */") (h : ∀ text ∈ texts, p (" * " ++ text)) :
    EachLine p (docBlock o texts) := by
  apply EachLine.stepsIf
  rw [List.cons_append, eachLine_line_cons, eachLine_append, eachLine_map_line, eachLine_line_cons]
  exact ⟨hbegin, h, hend, eachLine_nil⟩

/-- The line does not call the constructor of a parent. -/
def Orphan (text : String) : Prop := text ≠ "parent::__construct();"

theorem orphan_of_space {text : String} (h : ' ' ∈ text.toList) : Orphan text :=
  ne_of_space (by decide) h

theorem eachLine_orphan (o : Options) (c : Class) : EachLine Orphan (classBlock o none c) := by
  have hdoc (texts : List String) : EachLine Orphan (docBlock o texts) :=
    eachLine_docBlock (by simp [Orphan]) (by simp [Orphan]) fun _ _ => orphan_of_space (by simp)
  have hmembers : ∀ b ∈ members o none c, EachLine Orphan b := by
    intro b hb
    simp only [members, accessors, List.mem_append, List.mem_cons, List.mem_map] at hb
    rcases hb with (rfl | hb) | ⟨m, -, rfl⟩
    · rw [constructor, eachLine_append, eachLine_braced]
      refine ⟨hdoc _, eachLine_map_line.mpr fun p _ => ?_⟩
      exact orphan_of_space (by simp)
    · split at hb
      · simp only [List.mem_flatMap, List.mem_cons] at hb
        obtain ⟨p, -, hb⟩ := hb
        rcases hb with rfl | rfl | hb
        · rw [getter, eachLine_append, eachLine_braced, eachLine_line_cons]
          exact ⟨hdoc _, orphan_of_space (by simp), eachLine_nil⟩
        · rw [setter, eachLine_append, eachLine_braced, assignment, eachLine_line_cons,
            eachLine_line_cons]
          exact ⟨hdoc _, orphan_of_space (by simp), by simp [Orphan], eachLine_nil⟩
        · cases hb
      · cases hb
    · rw [method, eachLine_append, eachLine_braced, eachLine_line_cons]
      exact ⟨hdoc _, by simp [Orphan], EachLine.stepsIf (by simp [Orphan])⟩
  rw [classBlock, eachLine_append, eachLine_braced, eachLine_append, eachLine_flatMap,
    eachLine_spaced]
  refine ⟨hdoc _, ?_, hmembers⟩
  intro p _
  rw [property, eachLine_append, eachLine_line_cons]
  refine ⟨EachLine.stepsIf ?_, orphan_of_space (by simp), eachLine_nil⟩
  rw [eachLine_cons_of_ne .gap (by simp), eachLine_line_cons]
  exact ⟨orphan_of_space (by simp), eachLine_nil⟩

theorem infix_classBlock {o : Options} {parent : Option String} {c : Class} {b : List Step}
    (hb : b ∈ members o parent c) : b <:+: classBlock o parent c :=
  (infix_spaced hb).trans ((List.suffix_append _ _).isInfix.trans
    (infix_braced.trans (List.suffix_append _ _).isInfix))

theorem callsParent_iff (o : Options) (parent : Option String) (c : Class) :
    Target.php.CallsParent (classBlock o parent c) ↔ parent.isSome = true := by
  cases parent with
  | none =>
      refine ⟨?_, fun h => by cases h⟩
      intro h
      exact absurd rfl (eachLine_orphan o c _ h)
  | some p =>
      refine ⟨fun _ => rfl, fun _ => ?_⟩
      have hblock : constructor o (some p) c <:+: classBlock o (some p) c :=
        infix_classBlock (List.mem_cons_self ..)
      exact hblock.subset (by simp [constructor, stepsIf, braced])

end Php

/-! ## Python -/

namespace Python

/-- The line neither calls the initializer of a parent nor returns how an object is shown. -/
def Orphan (text : String) : Prop :=
  text ≠ "super().__init__()" ∧ ∀ shown, text ≠ "return f\"" ++ shown ++ "\""

theorem orphan_of_getLast? {text : String} (h : text ≠ "super().__init__()")
    (hlast : text.toList.getLast? ≠ some '"') : Orphan text := by
  refine ⟨h, ?_⟩
  rintro shown rfl
  apply hlast
  rw [getLast?_toList_append (by decide)]
  rfl

/-- A text with a space in it whose last part does not end in a quotation mark is an orphan. -/
theorem orphan_append {s e : String} (h : ' ' ∈ (s ++ e).toList) (he : e ≠ "")
    (hlast : e.toList.getLast? ≠ some '"') : Orphan (s ++ e) := by
  refine orphan_of_getLast? (ne_of_space (by decide) h) ?_
  rw [getLast?_toList_append he]
  exact hlast

theorem orphan_typeText (t : TypeName) : Orphan (typeText t) := by
  unfold typeText TypeName.spelling
  cases t.token with
  | custom text => exact orphan_of_getLast? (by simp [TypeToken.spelling]) (by simp [TypeToken.spelling])
  | known type =>
      cases type <;>
        exact orphan_of_getLast? (by simp [TypeToken.spelling]) (by simp [TypeToken.spelling])

/-- An assignment to an attribute may end in anything, but it begins with the attribute. -/
theorem orphan_assignment (name : String) : Orphan ("self." ++ name ++ " = " ++ name) := by
  refine ⟨ne_of_space (by decide) (by simp), ?_⟩
  intro shown h
  have hhead := congrArg (·.toList.head?) h
  simp at hhead

theorem orphan_quotes : Orphan "\"\"\"" := by
  refine ⟨by decide, ?_⟩
  intro shown h
  have hhead := congrArg (·.toList.head?) h
  simp at hhead

theorem eachLine_methodDoc (m : Method) : EachLine Orphan (methodDoc m) := by
  have harguments : EachLine Orphan (argumentDoc m.parameters) := by
    rw [argumentDoc, eachLine_append, eachLine_append, eachLine_map_line,
      eachLine_cons_of_ne .blank (by simp), eachLine_line_cons, eachLine_cons_of_ne .indent (by simp),
      eachLine_cons_of_ne .dedent (by simp)]
    refine ⟨⟨⟨orphan_of_getLast? (by decide) (by decide), eachLine_nil⟩, ?_⟩, eachLine_nil⟩
    intro p _
    exact orphan_append (by simp) (by decide) (by decide)
  rw [methodDoc, quotes, eachLine_append, eachLine_append, eachLine_line_cons, eachLine_line_cons,
    eachLine_cons_of_ne .blank (by simp), eachLine_line_cons, eachLine_cons_of_ne .indent (by simp),
    eachLine_line_cons, eachLine_cons_of_ne .dedent (by simp), eachLine_line_cons]
  have hname : Orphan (m.name ++ " method") := orphan_append (by simp) (by decide) (by decide)
  have hreturns : Orphan "Returns:" := orphan_of_getLast? (by decide) (by decide)
  exact ⟨⟨⟨orphan_quotes, hname, eachLine_nil⟩, EachLine.stepsIf harguments⟩, hreturns,
    orphan_typeText m.type, orphan_quotes, eachLine_nil⟩

theorem eachLine_orphan (o : Options) (c : Class) : EachLine Orphan (classBlock o none c) := by
  have hmembers : ∀ b ∈ members o none c, EachLine Orphan b := by
    intro b hb
    simp only [members, List.mem_append, List.mem_cons, List.mem_map, Option.toList_none,
      List.not_mem_nil, false_and, exists_false, or_false] at hb
    rcases hb with rfl | ⟨m, -, rfl⟩
    · rw [initializer, eachLine_indented, eachLine_append, eachLine_append]
      refine ⟨⟨eachLine_nil, eachLine_map_line.mpr fun p _ => orphan_assignment p.name⟩, ?_⟩
      apply EachLine.stepsIf
      rw [eachLine_line_cons]
      exact ⟨orphan_of_getLast? (by decide) (by decide), eachLine_nil⟩
    · rw [method, eachLine_indented, eachLine_append, eachLine_append, eachLine_line_cons]
      refine ⟨⟨EachLine.stepsIf (eachLine_methodDoc m), ?_, eachLine_nil⟩, EachLine.stepsIf ?_⟩
      · exact orphan_of_getLast? (by decide) (by decide)
      · rw [eachLine_line_cons]
        exact ⟨orphan_of_getLast? (by decide) (by decide), eachLine_nil⟩
  rw [classBlock, eachLine_indented, eachLine_append, eachLine_spaced]
  refine ⟨EachLine.stepsIf ?_, hmembers⟩
  rw [classDoc, quotes, eachLine_line_cons, eachLine_line_cons, eachLine_line_cons]
  refine ⟨orphan_quotes, ?_, orphan_quotes, eachLine_nil⟩
  show Orphan (c.name ++ " class" ++ "")
  rw [String.append_empty]
  exact orphan_append (by simp) (by decide) (by decide)

theorem infix_classBlock {o : Options} {parent : Option String} {c : Class} {b : List Step}
    (hb : b ∈ members o parent c) : b <:+: classBlock o parent c :=
  (infix_spaced hb).trans ((List.suffix_append _ _).isInfix.trans infix_indented)

theorem callsParent_iff (o : Options) (parent : Option String) (c : Class) :
    Target.python.CallsParent (classBlock o parent c) ↔ parent.isSome = true := by
  cases parent with
  | none =>
      refine ⟨?_, fun h => by cases h⟩
      intro h
      exact absurd rfl (eachLine_orphan o c _ h).1
  | some p =>
      refine ⟨fun _ => rfl, fun _ => ?_⟩
      have hblock : initializer (some p) c <:+: classBlock o (some p) c :=
        infix_classBlock (List.mem_cons_self ..)
      exact hblock.subset (by simp [initializer, stepsIf, indented])

theorem showsItself_iff (o : Options) (parent : Option String) (c : Class) :
    ShowsItself (classBlock o parent c) ↔ parent.isSome = true := by
  cases parent with
  | none =>
      refine ⟨?_, fun h => by cases h⟩
      rintro ⟨text, h⟩
      exact absurd rfl ((eachLine_orphan o c _ (h.subset (by simp))).2 text)
  | some p =>
      refine ⟨fun _ => rfl, fun _ => ?_⟩
      have hblock : strMethod c <:+: classBlock o (some p) c := infix_classBlock (by simp [members])
      exact ⟨_, List.IsInfix.trans ⟨[], _, rfl⟩ hblock⟩

end Python

/-! ## Models without defects -/

theorem callsParent_block_iff (target : Target) (o : Options) (parent : Option String) (c : Class) :
    target.CallsParent (target.dialect.block o parent c) ↔ parent.isSome = true := by
  cases target with
  | java => exact Java.callsParent_iff o parent c
  | php => exact Php.callsParent_iff o parent c
  | python => exact Python.callsParent_iff o parent c

theorem Model.check_eq_ok_iff {m : Model} : m.check = .ok () ↔ m.Sound := by
  rw [← defect?_eq_none_iff, check]
  cases m.defect? with
  | none => simp
  | some d => simp

/-- **Parents.** In a model without defects the parent of a class by name is its parent by key. The
header of its block names this parent in every target, and the constructor of the parent is called,
`toString` is overridden and `__str__` is defined exactly when there is one. -/
theorem Model.block_follows_keyParent? {m : Model} (h : m.check = .ok ()) (o : Options) {c : Class}
    (hc : c ∈ m.classes) :
    m.inheritance.parent? c.name = (m.keyParent? c).map (·.name) ∧
      (∀ target : Target, headerOf (m.block o target c) =
        some (target.classHeader c.name ((m.keyParent? c).map (·.name)))) ∧
      (∀ target : Target,
        target.CallsParent (m.block o target c) ↔ ∃ p, m.keyParent? c = some p) ∧
      (OverridesToString (m.block o .java c) ↔ ∃ p, m.keyParent? c = some p) ∧
      (ShowsItself (m.block o .python c) ↔ ∃ p, m.keyParent? c = some p) := by
  have hparent := (check_eq_ok_iff.mp h).parent?_eq hc
  have hsome : ((m.keyParent? c).map (·.name)).isSome = true ↔ ∃ p, m.keyParent? c = some p := by
    rw [Option.isSome_map, Option.isSome_iff_exists]
  unfold block
  rw [hparent, ← hsome]
  refine ⟨rfl, ?_, ?_, ?_, ?_⟩
  · intro target
    exact headerOf_block target o _ c
  · intro target
    exact callsParent_block_iff target o _ c
  · exact Java.overridesToString_iff o _ c
  · exact Python.showsItself_iff o _ c

/-- A dog is an animal: its first generalization leads nowhere, and its last one comes too late. -/
theorem Model.block_of_dog :
    let animal : Class := ⟨1, "Animal", [], []⟩
    let dog : Class := ⟨2, "Dog", [], []⟩
    let pet : Class := ⟨3, "Pet", [], []⟩
    let up (target : Key) : Relationship := ⟨2, target, .known .generalization, none, none⟩
    let m : Model := ⟨[animal, dog, pet], [up 9, up 1, up 3]⟩
    m.check = .ok () ∧ dog ∈ m.classes ∧ m.inheritance.parent? "Dog" = some "Animal" ∧
      headerOf (m.block .default .java dog) = some "public class Dog extends Animal \x7b" := by
  intro animal dog pet up m
  have hcheck : m.check = .ok () := by decide
  have hdog : dog ∈ m.classes := by decide
  obtain ⟨hparent, hheader, -⟩ := Model.block_follows_keyParent? hcheck .default hdog
  exact ⟨hcheck, hdog, hparent, hheader .java⟩

end UmlSkeleton

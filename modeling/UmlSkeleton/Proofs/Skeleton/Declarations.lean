import UmlSkeleton.Proofs.Java.View
import UmlSkeleton.Proofs.Layout.Selects
import UmlSkeleton.Proofs.Python.Bodies
import UmlSkeleton.Proofs.Skeleton.Lines

/-!
# One declaration for each property

The declarations of properties can be picked out of a skeleton by their form: in Java and PHP they are the
lines at the first level that end in a semicolon, in Python the lines at the second level that begin with
`self.`. Nothing else that is written has this form. Most lines are told apart by where they stand; of the
others, some end in a brace or begin with a star, and some are made of names, which have neither spaces
nor semicolons nor dots in them.

* `Identifier` — names as they are meant to be.
* `isDeclaration`, `isAssignment` — the forms.
* `declarations_skeleton` — the lines of these forms are the declarations of the properties, in order.
-/

namespace UmlSkeleton

open Text
open Python (content indentation content_line indentation_line Flush)

/-! ## Identifiers -/

/-- A letter, a digit or an underscore. Beyond ASCII every character may be a letter. -/
def isNameChar (c : Char) : Bool := isWordChar c || 128 ≤ c.toNat

/-- The text consists of letters, digits and underscores, and is not empty. -/
def Identifier (s : String) : Prop := s ≠ "" ∧ ∀ c ∈ s.toList, isNameChar c = true

instance (s : String) : Decidable (Identifier s) :=
  decidable_of_iff (s ≠ "" ∧ s.toList.all isNameChar = true) (and_congr_right' List.all_eq_true)

namespace Identifier

variable {s : String} (h : Identifier s)
include h

theorem not_mem {c : Char} (hc : isNameChar c = false) : c ∉ s.toList := by
  intro hmem
  rw [h.2 c hmem] at hc
  cases hc

theorem singleLine : SingleLine s := h.not_mem (by decide)

/-- A text that begins with a name has no space in front. -/
theorem flush_append (rest : String) : Flush (s ++ rest) := by
  cases hchars : s.toList with
  | nil => exact absurd (by simpa using hchars) h.1
  | cons c cs =>
      refine ⟨c, by simp [hchars], ?_⟩
      rintro rfl
      exact h.not_mem (by decide : isNameChar ' ' = false) (by simp [hchars])

/-- A text that ends with a name does not end in a semicolon. -/
theorem getLast?_append_ne (front : String) : (front ++ s).toList.getLast? ≠ some ';' := by
  rw [getLast?_toList_append h.1]
  intro hlast
  exact h.not_mem (by decide) (List.mem_of_getLast? hlast)

end Identifier

/-! ## Forms of lines -/

/-- Some spaces. -/
def spaces (n : Nat) : String := String.ofList (List.replicate n ' ')

/-- The line is exactly this far in, and ends in a semicolon. -/
def isDeclaration (w : Nat) (line : String) : Bool :=
  indentation line = w && line.toList.getLast? = some ';'

/-- The line is exactly twice this far in, and goes on with `self.`. -/
def isAssignment (w : Nat) (line : String) : Bool :=
  indentation line = 2 * w && "self.".toList.isPrefixOf (content line)

section
variable {w d : Nat} {text : String}

theorem getLast?_line (h : text ≠ "") :
    (Row.line w ⟨d, text⟩).toList.getLast? = text.toList.getLast? := by
  rw [Row.line_of_ne w d h, getLast?_toList_append h]

theorem line_eq_spaces (h : text ≠ "") : Row.line w ⟨d, text⟩ = spaces (d * w) ++ text :=
  Row.line_of_ne w d h

theorem isDeclaration_of_getLast? (h : text.toList.getLast? ≠ some ';') :
    isDeclaration w (Row.line w ⟨d, text⟩) = false := by
  have hlast : (Row.line w ⟨d, text⟩).toList.getLast? ≠ some ';' := by
    by_cases hempty : text = ""
    · subst hempty
      exact h
    · rwa [getLast?_line hempty]
  rw [isDeclaration, decide_eq_false hlast, Bool.and_false]

theorem isDeclaration_of_indentation (h : d * w + indentation text ≠ w) :
    isDeclaration w (Row.line w ⟨d, text⟩) = false := by
  by_cases hempty : text = ""
  · subst hempty
    exact isDeclaration_of_getLast? (by decide)
  · rw [isDeclaration, indentation_line hempty, decide_eq_false h, Bool.false_and]

theorem isAssignment_of_indentation (h : d * w + indentation text ≠ 2 * w) :
    isAssignment w (Row.line w ⟨d, text⟩) = false := by
  by_cases hempty : text = ""
  · subst hempty
    have hblank : content (Row.line w ⟨d, ""⟩) = [] := rfl
    rw [isAssignment, hblank]
    exact Bool.and_false _
  · rw [isAssignment, indentation_line hempty, decide_eq_false h, Bool.false_and]

theorem isAssignment_of_content (h : "self.".toList.isPrefixOf (content text) = false) :
    isAssignment w (Row.line w ⟨d, text⟩) = false := by
  rw [isAssignment, content_line, h, Bool.and_false]

end

theorem isDeclaration_blank (w : Nat) : isDeclaration w "" = false := by simp [isDeclaration]

theorem isAssignment_blank (w : Nat) : isAssignment w "" = false := by
  simp [isAssignment, content]

/-! ## Blocks in braces -/

section
variable {w : Nat} (hw : 1 ≤ w)
include hw

/-- Two levels in and more, no line is a declaration. -/
theorem selects_deep {d : Nat} (hd : 2 ≤ d) (text : String) :
    Selects (isDeclaration w) w d [.line text] [] := by
  refine Selects.line_of_neg (isDeclaration_of_indentation ?_)
  have hle : 2 * w ≤ d * w := Nat.mul_le_mul_right w hd
  omega

omit hw in
/-- A block in braces contributes what its body does. -/
theorem selects_braced {d : Nat} {header : String} {body : List Step} {out : List String}
    (h : Selects (isDeclaration w) w (d + 1) body out) :
    Selects (isDeclaration w) w d (braced header body) out := by
  refine Selects.braced (isDeclaration_of_getLast? ?_) (isDeclaration_of_getLast? (by decide)) h
  rw [getLast?_toList_append (by decide)]
  decide

end

/-! ## Java -/

namespace Java

theorem flush_typeText {t : TypeName} (h : t.raw.toList.head? ≠ some ' ') (rest : String) :
    Flush (typeText t ++ rest) := by
  unfold typeText TypeName.spelling
  rcases t.token_cases with ⟨type, htoken⟩ | ⟨-, htoken⟩
  · rw [htoken]
    cases type <;> exact ⟨_, by simp [TypeToken.spelling]; rfl, by decide⟩
  · rw [htoken]
    show Flush ((if allBlank t.raw then "Object" else t.raw) ++ rest)
    split
    · exact ⟨'O', by simp, by decide⟩
    · next hblank =>
        cases hchars : t.raw.toList with
        | nil => exact absurd (by simp [allBlank, hchars]) hblank
        | cons c cs => exact ⟨c, by simp [hchars], fun heq => h (by simp [hchars, heq])⟩

/-- A field begins where its row does, with the modifier or with the type. -/
theorem flush_fieldLine {p : Property} (h : p.type.raw.toList.head? ≠ some ' ') : Flush (fieldLine p) := by
  unfold fieldLine
  rw [String.append_assoc, String.append_assoc, String.append_assoc]
  unfold fieldModifier?
  cases p.visibility.access? with
  | none => exact ⟨'p', by simp [spacedModifier], by decide⟩
  | some access =>
      cases access with
      | everyone => exact ⟨'p', by simp [spacedModifier], by decide⟩
      | owner => exact ⟨'p', by simp [spacedModifier], by decide⟩
      | heirs => exact ⟨'p', by simp [spacedModifier], by decide⟩
      | package =>
          rw [spacedModifier, Option.elim_none, String.empty_append]
          exact flush_typeText h _

section
variable {w : Nat} (hw : 1 ≤ w)
include hw

theorem selects_constructor (o : Options) (parent : Option String) (c : Class) :
    Selects (isDeclaration w) w 1 (constructor o parent c) [] := by
  have hremark : Selects (isDeclaration w) w 1 [.line "// Constructor"] [] :=
    Selects.line_of_neg (isDeclaration_of_getLast? (by decide))
  exact (hremark.stepsIf _).append (selects_braced ((selects_deep hw (Nat.le_refl 2) _).stepsIf _))

theorem selects_method (o : Options) (hasParent : Bool) (f : Method) :
    Selects (isDeclaration w) w 1 (method o hasParent f) [] := by
  have hline := selects_deep hw (Nat.le_refl 2)
  exact selects_braced ((((hline _).stepsIf _).append (hline _)).append ((hline _).stepsIf _))

theorem selects_members (o : Options) (parent : Option String) (c : Class) :
    ∀ b ∈ members o parent c, Selects (isDeclaration w) w 1 b [] := by
  intro b hb
  have hline := selects_deep hw (Nat.le_refl 2)
  simp only [members, List.mem_append, List.mem_cons, List.mem_flatMap, List.mem_map,
    Option.mem_toList] at hb
  rcases hb with ((rfl | ⟨p, -, hb⟩) | ⟨f, -, rfl⟩) | ⟨p, -, rfl⟩
  · exact selects_constructor hw o parent c
  · rcases hb with rfl | rfl | hb
    · exact selects_braced (hline _)
    · exact selects_braced (hline _)
    · cases hb
  · exact selects_method hw o parent.isSome f
  · have hoverride : Selects (isDeclaration w) w 1 [.line "@Override"] [] :=
      Selects.line_of_neg (isDeclaration_of_getLast? (by decide))
    exact hoverride.append (selects_braced (hline _))

omit hw in
theorem selects_field {p : Property} (h : p.type.raw.toList.head? ≠ some ' ') :
    Selects (isDeclaration w) w 1 (field p) [spaces w ++ fieldLine p] := by
  have hflush := flush_fieldLine h
  have hline : Row.line w ⟨1, fieldLine p⟩ = spaces w ++ fieldLine p := by
    rw [line_eq_spaces hflush.ne_empty, Nat.one_mul]
  have hlast : (fieldLine p).toList.getLast? = some ';' := by
    unfold fieldLine
    rw [getLast?_toList_append (by decide)]
    decide
  have hdeclaration : isDeclaration w (Row.line w ⟨1, fieldLine p⟩) = true := by
    rw [isDeclaration, hflush.indentation_line, getLast?_line hflush.ne_empty, hlast, Nat.one_mul]
    simp
  rw [← hline]
  exact Selects.line_of_pos hdeclaration

theorem selects_classBlock (o : Options) (parent : Option String) {c : Class}
    (h : ∀ p ∈ c.properties, p.type.raw.toList.head? ≠ some ' ') :
    Selects (isDeclaration w) w 0 (classBlock o parent c)
      (c.properties.map fun p => spaces w ++ fieldLine p) := by
  have hfields : Selects (isDeclaration w) w 1 (c.properties.flatMap field)
      (c.properties.flatMap fun p => [spaces w ++ fieldLine p]) :=
    Selects.flatMap fun p hp => selects_field (h p hp)
  have hmembers := Selects.spaced (isDeclaration_blank w) (selects_members hw o parent c)
  have hbody := hfields.append hmembers
  rw [List.append_nil, ← List.map_eq_flatMap] at hbody
  exact selects_braced hbody

end

end Java

/-! ## PHP -/

namespace Php

/-- The declaration of a property. -/
def propertyLine (p : Property) : String := propertyKeyword p.visibility ++ " $" ++ p.name ++ ";"

theorem flush_propertyLine (p : Property) : Flush (propertyLine p) := by
  unfold propertyLine
  rw [String.append_assoc, String.append_assoc]
  unfold propertyKeyword
  split <;> exact ⟨'p', by simp, by decide⟩

section
variable {w : Nat}

/-- Documentation at any depth, if none of its lines is a declaration by itself. -/
theorem selects_docBlock (o : Options) {d : Nat} {texts : List String}
    (h : ∀ t ∈ texts, isDeclaration w (Row.line w ⟨d, " * " ++ t⟩) = false) :
    Selects (isDeclaration w) w d (docBlock o texts) [] := by
  have hfirst : Selects (isDeclaration w) w d [.line "/**"] [] :=
    Selects.line_of_neg (isDeclaration_of_getLast? (by decide))
  have hlast : Selects (isDeclaration w) w d [.line " */"] [] :=
    Selects.line_of_neg (isDeclaration_of_getLast? (by decide))
  exact ((hfirst.append (Selects.lines_of_neg h)).append hlast).stepsIf _

/-- The star of a member's documentation is one space further in than a declaration. -/
theorem selects_memberDoc (o : Options) (texts : List String) :
    Selects (isDeclaration w) w 1 (docBlock o texts) [] := by
  refine selects_docBlock o fun t _ => isDeclaration_of_indentation ?_
  have hstar : indentation (" * " ++ t) = 1 := by simp [indentation]
  omega

theorem selects_property (o : Options) (p : Property) :
    Selects (isDeclaration w) w 1 (property o p) [spaces w ++ propertyLine p] := by
  have hflush := flush_propertyLine p
  have hline : Row.line w ⟨1, propertyLine p⟩ = spaces w ++ propertyLine p := by
    rw [line_eq_spaces hflush.ne_empty, Nat.one_mul]
  have hlast : (propertyLine p).toList.getLast? = some ';' := by
    unfold propertyLine
    rw [getLast?_toList_append (by decide)]
    decide
  have hdeclaration : isDeclaration w (Row.line w ⟨1, propertyLine p⟩) = true := by
    rw [isDeclaration, hflush.indentation_line, getLast?_line hflush.ne_empty, hlast, Nat.one_mul]
    simp
  have hdoc : Selects (isDeclaration w) w 1 [.line ("/** @var " ++ valueTypeText p.type ++ " */")] [] := by
    refine Selects.line_of_neg (isDeclaration_of_getLast? ?_)
    rw [getLast?_toList_append (by decide)]
    decide
  rw [← hline]
  exact (((Selects.gap (isDeclaration_blank w)).append hdoc).stepsIf _).append
    (Selects.line_of_pos hdeclaration)

variable (hw : 1 ≤ w)
include hw

theorem selects_members (o : Options) (parent : Option String) (c : Class) :
    ∀ b ∈ members o parent c, Selects (isDeclaration w) w 1 b [] := by
  intro b hb
  have hline := selects_deep hw (Nat.le_refl 2)
  simp only [members, accessors, List.mem_append, List.mem_cons, List.mem_map] at hb
  rcases hb with (rfl | hb) | ⟨f, -, rfl⟩
  · have hassignments : Selects (isDeclaration w) w 2 (c.properties.map assignment) [] := by
      rw [List.map_eq_flatMap]
      exact Selects.flatMap_nil fun p _ => hline _
    exact (selects_memberDoc o _).append (selects_braced (((hline _).stepsIf _).append hassignments))
  · split at hb
    · simp only [List.mem_flatMap, List.mem_cons] at hb
      obtain ⟨p, -, hb⟩ := hb
      rcases hb with rfl | rfl | hb
      · exact (selects_memberDoc o _).append (selects_braced (hline _))
      · exact (selects_memberDoc o _).append (selects_braced ((hline _).append (hline _)))
      · cases hb
    · cases hb
  · have hremark := hline "// TODO: Implement method"
    have hbody := hremark.append ((hline "return null; // Placeholder return").stepsIf (!f.type.isVoid))
    rw [List.singleton_append, List.append_nil] at hbody
    exact (selects_memberDoc o _).append (selects_braced hbody)

/-- The documentation of a class is at the margin, so its star may be where a declaration begins; but it
ends with the name of a class. -/
theorem selects_classBlock (o : Options) {parent : Option String} {c : Class} (hname : Identifier c.name)
    (hparent : ∀ p ∈ parent, Identifier p) :
    Selects (isDeclaration w) w 0 (classBlock o parent c)
      (c.properties.map fun p => spaces w ++ propertyLine p) := by
  have hdoc : Selects (isDeclaration w) w 0
      (docBlock o (("Class " ++ c.name) :: parent.toList.map ("@extends " ++ ·))) [] := by
    refine selects_docBlock o fun t ht => isDeclaration_of_getLast? ?_
    rcases List.mem_cons.mp ht with rfl | ht
    · rw [← String.append_assoc]
      exact hname.getLast?_append_ne (" * " ++ "Class ")
    · obtain ⟨p, hp, rfl⟩ := List.mem_map.mp ht
      rw [← String.append_assoc]
      exact (hparent p (Option.mem_toList.mp hp)).getLast?_append_ne (" * " ++ "@extends ")
  have hproperties : Selects (isDeclaration w) w 1 (c.properties.flatMap (property o))
      (c.properties.flatMap fun p => [spaces w ++ propertyLine p]) :=
    Selects.flatMap fun p _ => selects_property o p
  have hmembers := Selects.spaced (isDeclaration_blank w) (selects_members hw o parent c)
  have hbody := hproperties.append hmembers
  rw [List.append_nil, ← List.map_eq_flatMap] at hbody
  exact hdoc.append (selects_braced hbody)

end

end Php

/-! ## Python -/

namespace Python

/-- A property gets its value from the argument of the same name. -/
def assignmentLine (p : Property) : String := "self." ++ p.name ++ " = " ++ p.name

section
variable {w : Nat}

/-- Only a line that begins with `self.` is an assignment. -/
theorem selects_other {text : String} (h : "self.".toList.isPrefixOf (content text) = false) (d : Nat) :
    Selects (isAssignment w) w d [.line text] [] :=
  Selects.line_of_neg (isAssignment_of_content h)

/-- A text with no dot in it does not begin with `self.`. -/
theorem isPrefixOf_content_of_not_mem {text : String} (h : '.' ∉ text.toList) :
    "self.".toList.isPrefixOf (content text) = false := by
  rw [Bool.eq_false_iff]
  intro hprefix
  have hdot : '.' ∈ content text := (List.isPrefixOf_iff_prefix.mp hprefix).subset (by decide)
  exact h ((List.dropWhile_sublist _).subset hdot)

theorem selects_assignment (p : Property) : Selects (isAssignment w) w 2 [.line (assignmentLine p)]
    [spaces (2 * w) ++ assignmentLine p] := by
  have hflush : Flush (assignmentLine p) := ⟨'s', by simp [assignmentLine], by decide⟩
  have hprefix : "self.".toList.isPrefixOf (content (assignmentLine p)) = true := by
    rw [hflush.content_eq, List.isPrefixOf_iff_prefix, assignmentLine, String.append_assoc,
      String.append_assoc, String.toList_append]
    exact List.prefix_append _ _
  have hassignment : isAssignment w (Row.line w ⟨2, assignmentLine p⟩) = true := by
    rw [isAssignment, hflush.indentation_line, content_line, hprefix]
    simp
  rw [← line_eq_spaces hflush.ne_empty]
  exact Selects.line_of_pos hassignment

variable (hw : 1 ≤ w)
include hw

/-- At any other depth than two, a text with no space in front of it is no assignment. -/
theorem isAssignment_flush {d : Nat} (hd : d ≠ 2) {text : String} (h : Flush text) :
    isAssignment w (Row.line w ⟨d, text⟩) = false := by
  refine isAssignment_of_indentation ?_
  rw [h.indentation_eq, Nat.add_zero]
  intro heq
  exact hd (Nat.eq_of_mul_eq_mul_right hw heq)

theorem selects_flush {d : Nat} (hd : d ≠ 2) {text : String} (h : Flush text) :
    Selects (isAssignment w) w d [.line text] [] :=
  Selects.line_of_neg (isAssignment_flush hw hd h)

theorem selects_initializer (parent : Option String) (c : Class) :
    Selects (isAssignment w) w 1 (initializer parent c)
      (c.properties.map fun p => spaces (2 * w) ++ assignmentLine p) := by
  have hassignments : Selects (isAssignment w) w 2
      (c.properties.map fun p => .line ("self." ++ p.name ++ " = " ++ p.name))
      (c.properties.flatMap fun p => [spaces (2 * w) ++ assignmentLine p]) := by
    rw [List.map_eq_flatMap]
    exact Selects.flatMap fun p _ => selects_assignment p
  have hcall : Selects (isAssignment w) w 2 [.line "super().__init__()"] [] := selects_other (by decide) 2
  have hpass : Selects (isAssignment w) w 2 [.line "pass"] [] := selects_other (by decide) 2
  have hbody := ((hcall.stepsIf parent.isSome).append hassignments).append
    (hpass.stepsIf (parent.isNone && c.properties.isEmpty))
  rw [List.nil_append, List.append_nil, ← List.map_eq_flatMap] at hbody
  have htitle := title_initializerHeader c
  rw [initializer_eq] at *
  exact Selects.indented (isAssignment_flush hw (by decide) htitle.flush) hbody

/-- Three levels in and more, no line is an assignment. -/
theorem selects_inner {d : Nat} (hd : 3 ≤ d) (text : String) :
    Selects (isAssignment w) w d [.line text] [] := by
  refine Selects.line_of_neg (isAssignment_of_indentation ?_)
  have hle : 3 * w ≤ d * w := Nat.mul_le_mul_right w hd
  omega

theorem selects_argumentDoc (parameters : List Parameter) :
    Selects (isAssignment w) w 2 (argumentDoc parameters) [] := by
  have hblank : Selects (isAssignment w) w 2 [.blank] [] := Selects.blank (isAssignment_blank w)
  have htitle : Selects (isAssignment w) w 2 [.line "Args:"] [] := selects_other (by decide) 2
  have hparameters : Selects (isAssignment w) w 3
      (parameters.map fun p => .line (p.name ++ ": " ++ p.type.raw ++ " parameter")) [] := by
    rw [List.map_eq_flatMap]
    exact Selects.flatMap_nil fun p _ => selects_inner hw (Nat.le_refl 3) _
  exact (hblank.append htitle).append hparameters.deeper

theorem selects_methodDoc {f : Method} (h : Identifier f.name) :
    Selects (isAssignment w) w 2 (methodDoc f) [] := by
  have hquotes : Selects (isAssignment w) w 2 [quotes] [] := selects_other (by decide) 2
  have hblank : Selects (isAssignment w) w 2 [.blank] [] := Selects.blank (isAssignment_blank w)
  have htitle : Selects (isAssignment w) w 2 [.line "Returns:"] [] := selects_other (by decide) 2
  have hname : Selects (isAssignment w) w 2 [.line (f.name ++ " method")] [] := by
    refine selects_other (isPrefixOf_content_of_not_mem ?_) 2
    rw [String.toList_append, List.mem_append, not_or]
    exact ⟨h.not_mem (by decide), by decide⟩
  have htype := (selects_inner hw (Nat.le_refl 3) (typeText f.type)).deeper
  have harguments := (selects_argumentDoc hw f.parameters).stepsIf (!f.parameters.isEmpty)
  have hreturns : Selects (isAssignment w) w 2
      [.blank, .line "Returns:", .indent, .line (typeText f.type), .dedent, quotes] [] :=
    ((hblank.append htitle).append htype).append hquotes
  have hfirst : Selects (isAssignment w) w 2 [quotes, .line (f.name ++ " method")] [] :=
    hquotes.append hname
  exact (hfirst.append harguments).append hreturns

theorem selects_method (o : Options) {f : Method} (h : Identifier f.name) :
    Selects (isAssignment w) w 1 (method o f) [] := by
  have hremark : Selects (isAssignment w) w 2 [.line "# TODO: Implement method"] [] :=
    selects_other (by decide) 2
  have hreturn : Selects (isAssignment w) w 2 [.line "return None  # Placeholder return"] [] :=
    selects_other (by decide) 2
  have hbody := hremark.append (hreturn.stepsIf (!f.type.isVoid))
  rw [List.singleton_append, List.append_nil, ← methodBody] at hbody
  rw [method_eq]
  exact Selects.indented (isAssignment_flush hw (by decide) (title_methodHeader f).flush)
    (((selects_methodDoc hw h).stepsIf _).append hbody)

theorem selects_strMethod (c : Class) : Selects (isAssignment w) w 1 (strMethod c) [] := by
  have htitle : Flush "def __str__(self) -> str:" := ⟨'d', rfl, by decide⟩
  refine Selects.indented (isAssignment_flush hw (by decide) htitle) (selects_other ?_ 2)
  have hflush : Flush ("return f\"" ++ shown c.name (c.properties.map (·.name)) ++ "\"") :=
    ⟨'r', by simp, by decide⟩
  rw [hflush.content_eq, String.append_assoc, String.toList_append]
  rfl

theorem selects_classBlock (o : Options) (parent : Option String) {c : Class} (hname : Identifier c.name)
    (hmethods : ∀ f ∈ c.methods, Identifier f.name) :
    Selects (isAssignment w) w 0 (classBlock o parent c)
      (c.properties.map fun p => spaces (2 * w) ++ assignmentLine p) := by
  have hgap : Selects (isAssignment w) w 1 [.gap] [] := Selects.gap (isAssignment_blank w)
  have hquotes : Selects (isAssignment w) w 1 [quotes] [] := selects_flush hw (by decide) flush_quotes
  have htitle : Selects (isAssignment w) w 1
      [.line (c.name ++ " class" ++ parent.elim "" (" inheriting from " ++ ·))] [] := by
    refine selects_flush hw (by decide) ?_
    rw [String.append_assoc]
    exact hname.flush_append _
  have hdoc : Selects (isAssignment w) w 1 (classDoc parent c) [] :=
    (hquotes.append htitle).append hquotes
  have hothers : Selects (isAssignment w) w 1
      (spaced (c.methods.map (method o) ++ parent.toList.map fun _ => strMethod c)) [] := by
    refine Selects.spaced (isAssignment_blank w) fun b hb => ?_
    rcases List.mem_append.mp hb with hb | hb
    · obtain ⟨f, hf, rfl⟩ := List.mem_map.mp hb
      exact selects_method hw o (hmethods f hf)
    · obtain ⟨p, -, rfl⟩ := List.mem_map.mp hb
      exact selects_strMethod hw c
  have hmembers := (hgap.append (selects_initializer hw parent c)).append hothers
  have hbody := (hdoc.stepsIf o.docs).append hmembers
  rw [List.nil_append, List.nil_append, List.append_nil] at hbody
  exact Selects.indented (isAssignment_flush hw (by decide) (title_header parent c).flush) hbody

end

end Python

/-! ## Skeletons -/

namespace Model

/-- The properties of all classes, in order. -/
def properties (m : Model) : List Property := m.classes.flatMap (·.properties)

/-- A skeleton contributes what the blocks of its classes do. -/
theorem selects_layout (m : Model) (o : Options) (target : Target) {test : String → Bool}
    {f : Property → String} (hprologue : Selects test o.indent 0 target.dialect.prologue [])
    (hseparator : Selects test o.indent 0 target.dialect.separator [])
    (hblock : ∀ c ∈ m.classes, Selects test o.indent 0 (m.block o target c) (c.properties.map f))
    (htrailer : ∀ rest, test (Row.line o.indent ⟨0, target.comment ++ rest⟩) = false) :
    Selects test o.indent 0 (m.layout o target) (m.properties.map f) := by
  have hcomments : Selects test o.indent 0 (m.trailer target) [] := by
    show Selects test o.indent 0 ((m.trailerLines target).map fun text => .line text) []
    refine Selects.lines_of_neg fun text htext => ?_
    obtain ⟨rest, rfl⟩ := exists_of_mem_trailerLines htext
    exact htrailer rest
  have hclasses := Selects.flatMap fun c hc => hseparator.append (hblock c hc)
  have hlayout := (hprologue.append hclasses).append ((hseparator.append hcomments).stepsIf o.trailer)
  rw [List.nil_append, List.append_nil] at hlayout
  rw [properties, List.map_flatMap]
  exact hlayout

theorem flush_comment (target : Target) (rest : String) : Flush (target.comment ++ rest) := by
  cases target with
  | java => exact ⟨'/', by simp [Target.comment], by decide⟩
  | php => exact ⟨'/', by simp [Target.comment], by decide⟩
  | python => exact ⟨'#', by simp [Target.comment], by decide⟩

section
variable (m : Model) {o : Options} (hw : 1 ≤ o.indent)
include hw

theorem isDeclaration_comment (target : Target) (rest : String) :
    isDeclaration o.indent (Row.line o.indent ⟨0, target.comment ++ rest⟩) = false := by
  refine isDeclaration_of_indentation ?_
  rw [(flush_comment target rest).indentation_eq]
  omega

theorem selects_java
    (h : ∀ c ∈ m.classes, ∀ p ∈ c.properties, p.type.raw.toList.head? ≠ some ' ') :
    Selects (isDeclaration o.indent) o.indent 0 (m.layout o .java)
      (m.properties.map fun p => spaces o.indent ++ Java.fieldLine p) :=
  selects_layout m o .java Selects.nil (Selects.gap (isDeclaration_blank _))
    (fun c hc => Java.selects_classBlock hw o _ (h c hc)) (isDeclaration_comment hw .java)

theorem selects_php (h : ∀ c ∈ m.classes, Identifier c.name) :
    Selects (isDeclaration o.indent) o.indent 0 (m.layout o .php)
      (m.properties.map fun p => spaces o.indent ++ Php.propertyLine p) := by
  have hopening : Selects (isDeclaration o.indent) o.indent 0 [.line "<?php"] [] :=
    Selects.line_of_neg (isDeclaration_of_getLast? (by decide))
  exact selects_layout m o .php hopening (Selects.gap (isDeclaration_blank _))
    (fun c hc => Php.selects_classBlock hw o (h c hc) (forall_mem_parent? h c.name))
    (isDeclaration_comment hw .php)

theorem selects_python
    (h : ∀ c ∈ m.classes, Identifier c.name ∧ ∀ f ∈ c.methods, Identifier f.name) :
    Selects (isAssignment o.indent) o.indent 0 (m.layout o .python)
      (m.properties.map fun p => spaces (2 * o.indent) ++ Python.assignmentLine p) := by
  have himport : Selects (isAssignment o.indent) o.indent 0
      [.line "from typing import Any, List, Optional"] [] :=
    Python.selects_flush hw (by decide) ⟨'f', rfl, by decide⟩
  have hblank : isAssignment o.indent "" = false := isAssignment_blank o.indent
  exact selects_layout m o .python himport ((Selects.gap hblank).append (Selects.blank hblank))
    (fun c hc => Python.selects_classBlock hw o _ (h c hc).1 (h c hc).2)
    fun rest => Python.isAssignment_flush hw (by decide) (flush_comment .python rest)

end

/-- **Declarations.** Let all names of a model be identifiers, let no type begin with a space, and let
types, kinds and multiplicities be on single lines. Then the lines of a Java or a PHP skeleton that are
one level in and end in a semicolon are the declarations of the properties, and the lines of a Python
skeleton that are two levels in and begin with `self.` are their assignments, each in the order of the
model. No option makes a difference, as long as an indentation has a width at all. -/
theorem declarations_skeleton {m : Model} {o : Options} (hnames : ∀ t ∈ m.names, Identifier t)
    (htypes : ∀ t ∈ m.typeTexts, SingleLine t ∧ t.toList.head? ≠ some ' ')
    (hrelationships : ∀ r ∈ m.relationships,
      SingleLine r.kind.text ∧ ∀ t ∈ r.multiplicity, SingleLine t) (hw : 1 ≤ o.indent) :
    (lines (m.skeleton o .java)).filter (isDeclaration o.indent) =
        m.properties.map (fun p => spaces o.indent ++ Java.fieldLine p) ∧
      (lines (m.skeleton o .php)).filter (isDeclaration o.indent) =
        m.properties.map (fun p => spaces o.indent ++ Php.propertyLine p) ∧
      (lines (m.skeleton o .python)).filter (isAssignment o.indent) =
        m.properties.map (fun p => spaces (2 * o.indent) ++ Python.assignmentLine p) := by
  have hname (c : Class) (hc : c ∈ m.classes) :=
    Class.forall_names_iff.mp (List.forall_mem_flatMap.mp hnames c hc)
  have htype (c : Class) (hc : c ∈ m.classes) :=
    Class.forall_typeTexts_iff.mp (List.forall_mem_flatMap.mp htypes c hc)
  have hwritten : ∀ t ∈ m.written, SingleLine t := by
    refine forall_written_iff.mpr ⟨fun c hc => Class.forall_written_iff.mpr ⟨?_, ?_⟩, hrelationships⟩
    · exact fun t ht => (List.forall_mem_flatMap.mp hnames c hc t ht).singleLine
    · exact fun t ht => (List.forall_mem_flatMap.mp htypes c hc t ht).1
  rw [lines_skeleton hwritten, lines_skeleton hwritten, lines_skeleton hwritten]
  refine ⟨?_, ?_, ?_⟩
  · exact (m.selects_java hw fun c hc p hp => ((htype c hc).1 p hp).2).filter_eq false
  · exact (m.selects_php hw fun c hc => (hname c hc).1).filter_eq false
  · refine (m.selects_python hw fun c hc => ⟨(hname c hc).1, fun f hf => ?_⟩).filter_eq false
    exact ((hname c hc).2.2 f hf).1

/-- A dog with a name, an age and an owner. -/
theorem declarations_of_dog :
    let name : Property := ⟨"name", ⟨"string"⟩, .ofText "private"⟩
    let age : Property := ⟨"age", ⟨"int"⟩, .ofText "package"⟩
    let owner : Property := ⟨"owner", ⟨"Person"⟩, .ofText "public"⟩
    let bark : Method := ⟨"bark", ⟨"void"⟩, .ofText "public", [⟨"self", ⟨"Dog"⟩⟩]⟩
    let m : Model := ⟨[⟨1, "Dog", [name, age, owner], [bark]⟩], []⟩
    (∀ t ∈ m.names, Identifier t) ∧
      (∀ t ∈ m.typeTexts, SingleLine t ∧ t.toList.head? ≠ some ' ') ∧
      (∀ r ∈ m.relationships, SingleLine r.kind.text ∧ ∀ t ∈ r.multiplicity, SingleLine t) ∧
      1 ≤ Options.default.indent ∧
      (lines (m.skeleton .default .java)).filter (isDeclaration 4) =
        ["    private String name;", "    int age;", "    public Person owner;"] ∧
      (lines (m.skeleton .default .php)).filter (isDeclaration 4) =
        ["    private $name;", "    private $age;", "    public $owner;"] ∧
      (lines (m.skeleton .default .python)).filter (isAssignment 4) =
        ["        self.name = name", "        self.age = age", "        self.owner = owner"] := by
  intro name age owner bark m
  have hnames : ∀ t ∈ m.names, Identifier t := by decide
  have htypes : ∀ t ∈ m.typeTexts, SingleLine t ∧ t.toList.head? ≠ some ' ' := by decide
  have hrelationships : ∀ r ∈ m.relationships,
      SingleLine r.kind.text ∧ ∀ t ∈ r.multiplicity, SingleLine t := by simp [m]
  have hw : 1 ≤ Options.default.indent := by decide
  obtain ⟨hjava, hphp, hpython⟩ := declarations_skeleton hnames htypes hrelationships hw
  refine ⟨hnames, htypes, hrelationships, hw, hjava.trans ?_, hphp.trans ?_, hpython.trans ?_⟩
  · decide +kernel
  · decide +kernel
  · decide +kernel

end Model

end UmlSkeleton

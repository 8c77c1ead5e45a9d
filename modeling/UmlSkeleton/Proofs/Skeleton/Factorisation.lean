import UmlSkeleton.Proofs.Skeleton.Sections

/-!
# The text of a skeleton, section by section

`skeleton_java`, `skeleton_php` and `skeleton_python` say how the text of a skeleton is made of the
texts of its sections: what stands before the first one and between two of them depends on the
target alone. Java has blank lines between sections only; the other two begin with a line of their
own and have blank lines before every section. With that, `skeleton_split` cuts any skeleton at the
block of one class, and the two remaining pieces do not know the members of that class.
-/

namespace UmlSkeleton

/-! ## Joining texts -/

theorem intercalate_cons_eq_join (s t : String) (l : List String) :
    s.intercalate (t :: l) = t ++ String.join (l.map (s ++ ·)) := by
  induction l generalizing t with
  | nil => simp
  | cons u l ih =>
      rw [String.intercalate_cons_cons, ih, List.map_cons, String.join_cons]
      simp only [String.append_assoc]

/-- Between separators, one text has a front and a back that do not depend on it. -/
theorem intercalate_append_cons (s t : String) (before after : List String) :
    s.intercalate (before ++ t :: after) =
      String.join (before.map (· ++ s)) ++ t ++ String.join (after.map (s ++ ·)) := by
  induction before with
  | nil => simp [intercalate_cons_eq_join]
  | cons u before ih =>
      have hne : before ++ t :: after ≠ [] := by simp
      rw [List.cons_append, String.intercalate_cons_of_ne_nil hne, ih, List.map_cons,
        String.join_cons]
      simp only [String.append_assoc]

theorem join_map_append_cons (f : String → String) (t : String) (before after : List String) :
    String.join ((before ++ t :: after).map f) =
      String.join (before.map f) ++ f t ++ String.join (after.map f) := by
  rw [List.map_append, List.map_cons, String.join_append, String.join_cons, String.append_assoc]

namespace Model

variable (m : Model) (o : Options)

/-! ## The three targets -/

/-- The texts of the sections with a separator before each, in the middle of a page. -/
theorem textOfRows_sections (target : Target)
    (hsep : Margin.run ⟨0, true⟩ target.dialect.separator = .start) :
    textOfRows o.indent
        (rows ⟨0, true⟩ ((m.sections o target).flatMap (target.dialect.separator ++ ·))) =
      String.join ((m.sectionTexts o target).map
        (textOfRows o.indent (rows ⟨0, true⟩ target.dialect.separator) ++ ·)) := by
  rw [textOfRows_siblings hsep fun s hs => m.settled_sections o target s hs .start, sectionTexts_eq,
    List.map_map]
  rfl

/-- Java: sections with a blank line between them, and nothing else. -/
theorem skeleton_java : m.skeleton o .java = "\n".intercalate (m.sectionTexts o .java) := by
  rw [skeleton, layout_eq, sectionTexts_eq]
  have hsections := m.settled_sections o .java
  -- The first section opens the page, so no gap is due before it; before the others one is.
  cases hs : m.sections o .java with
  | nil => rfl
  | cons s more =>
      rw [hs] at hsections
      have hfirst : Margin.run .start s = ⟨0, true⟩ := hsections s (by simp) .start
      have hmore : textOfRows o.indent (rows ⟨0, true⟩ (more.flatMap ([.gap] ++ ·))) = _ :=
        textOfRows_siblings rfl (fun t ht => hsections t (List.mem_cons_of_mem s ht) .start) o.indent
      rw [List.map_cons, intercalate_cons_eq_join, List.map_map]
      show textOfRows o.indent (rows .start (s ++ more.flatMap ([.gap] ++ ·))) = _
      rw [rows_append, hfirst, textOfRows_append, hmore]
      rfl

/-- PHP: an opening line, and a blank line before each section. -/
theorem skeleton_php :
    m.skeleton o .php = "<?php\n" ++ String.join ((m.sectionTexts o .php).map ("\n" ++ ·)) := by
  rw [skeleton, layout_eq, layOut, rows_append, textOfRows_append]
  show textOfRows o.indent [⟨0, "<?php"⟩] ++ textOfRows o.indent (rows ⟨0, true⟩ _) = _
  rw [textOfRows_sections m o .php rfl, textOfRows_margin]
  rfl

/-- Python: a line of imports, and two blank lines before each section. -/
theorem skeleton_python :
    m.skeleton o .python = "from typing import Any, List, Optional\n" ++
      String.join ((m.sectionTexts o .python).map ("\n\n" ++ ·)) := by
  rw [skeleton, layout_eq, layOut, rows_append, textOfRows_append]
  show textOfRows o.indent [⟨0, "from typing import Any, List, Optional"⟩] ++
    textOfRows o.indent (rows ⟨0, true⟩ _) = _
  rw [textOfRows_sections m o .python rfl, textOfRows_margin]
  rfl

/-- Every section ends a line, so a line break between two of them is a blank line. -/
theorem exists_sectionTexts_eq (target : Target) :
    ∃ inits : List String, m.sectionTexts o target = inits.map (· ++ "\n") := by
  rw [sectionTexts_eq]
  have hsections := m.settled_sections o target
  generalize m.sections o target = sections at hsections
  induction sections with
  | nil => exact ⟨[], rfl⟩
  | cons s more ih =>
      obtain ⟨init, hinit⟩ := (hsections s (by simp)).exists_layOut_eq o.indent
      obtain ⟨inits, hinits⟩ := ih fun t ht => hsections t (List.mem_cons_of_mem s ht)
      exact ⟨init :: inits, by rw [List.map_cons, hinit, hinits, List.map_cons]⟩

end Model

/-! ## Editing the members of one class -/

/-- The class with other members. -/
def Class.withMembers (c : Class) (properties : List Property) (methods : List Method) : Class :=
  ⟨c.key, c.name, properties, methods⟩

namespace Model

/-- Members change neither the parents nor the trailer, so they change one section only. -/
theorem sectionTexts_withMembers (o : Options) (target : Target) (before after : List Class)
    (c : Class) (relationships : List Relationship) : ∃ earlier later : List String,
      ∀ (properties : List Property) (methods : List Method),
        (Model.mk (before ++ c.withMembers properties methods :: after)
            relationships).sectionTexts o target =
          earlier ++ (Model.mk (before ++ c.withMembers properties methods :: after)
            relationships).blockText o target (c.withMembers properties methods) :: later := by
  let m : Model := ⟨before ++ c :: after, relationships⟩
  refine ⟨before.map (m.blockText o target), after.map (m.blockText o target) ++
    if o.trailer then [m.trailerText o target] else [], ?_⟩
  intro properties methods
  let n : Model := ⟨before ++ c.withMembers properties methods :: after, relationships⟩
  have hfaces : m.classes.map Class.face = n.classes.map Class.face := by
    simp only [m, n, List.map_append, List.map_cons]
    rfl
  have hblock : m.blockText o target = n.blockText o target := by
    funext b
    rw [blockText, block, inheritance_congr hfaces rfl]
    rfl
  have htrailer : m.trailerText o target = n.trailerText o target := by
    rw [trailerText, trailer_congr hfaces rfl]
    rfl
  show n.sectionTexts o target = _
  rw [sectionTexts, List.map_append, List.map_cons, hblock, htrailer, List.append_assoc]
  rfl

/-- Around the block of a class stands a text that does not depend on the members of the class. -/
theorem skeleton_withMembers (o : Options) (target : Target) (before after : List Class)
    (c : Class) (relationships : List Relationship) : ∃ front back : String,
      ∀ (properties : List Property) (methods : List Method),
        (Model.mk (before ++ c.withMembers properties methods :: after)
            relationships).skeleton o target =
          front ++ (Model.mk (before ++ c.withMembers properties methods :: after)
            relationships).blockText o target (c.withMembers properties methods) ++ back := by
  obtain ⟨earlier, later, hsections⟩ :=
    sectionTexts_withMembers o target before after c relationships
  cases target with
  | java =>
      refine ⟨String.join (earlier.map (· ++ "\n")), String.join (later.map ("\n" ++ ·)), ?_⟩
      intro properties methods
      rw [skeleton_java, hsections, intercalate_append_cons]
  | php =>
      refine ⟨"<?php\n" ++ String.join (earlier.map ("\n" ++ ·)) ++ "\n",
        String.join (later.map ("\n" ++ ·)), ?_⟩
      intro properties methods
      rw [skeleton_php, hsections, join_map_append_cons]
      simp only [String.append_assoc]
  | python =>
      refine ⟨"from typing import Any, List, Optional\n" ++
          String.join (earlier.map ("\n\n" ++ ·)) ++ "\n\n",
        String.join (later.map ("\n\n" ++ ·)), ?_⟩
      intro properties methods
      rw [skeleton_python, hsections, join_map_append_cons]
      simp only [String.append_assoc]

/-! ## All together -/

/-- **Factorisation.** The text of a skeleton is the beginning of the file, the blocks of the classes
in order, each as it is on a page of its own, and the trailer if it is wanted, with the blank lines
of the target between them; and what a class has for members stays inside its block. -/
theorem skeleton_factors (m : Model) (o : Options) :
    (m.skeleton o .java = "\n".intercalate (m.sectionTexts o .java) ∧
      m.skeleton o .php = "<?php\n" ++ String.join ((m.sectionTexts o .php).map ("\n" ++ ·)) ∧
      m.skeleton o .python = "from typing import Any, List, Optional\n" ++
        String.join ((m.sectionTexts o .python).map ("\n\n" ++ ·))) ∧
    (∀ target, ∃ inits : List String, m.sectionTexts o target = inits.map (· ++ "\n")) ∧
    ∀ (target : Target) (before after : List Class) (c : Class)
      (relationships : List Relationship), ∃ front back : String,
        ∀ (properties : List Property) (methods : List Method),
          (Model.mk (before ++ c.withMembers properties methods :: after)
              relationships).skeleton o target =
            front ++ (Model.mk (before ++ c.withMembers properties methods :: after)
              relationships).blockText o target (c.withMembers properties methods) ++ back :=
  ⟨⟨skeleton_java m o, skeleton_php m o, skeleton_python m o⟩, exists_sectionTexts_eq m o,
    skeleton_withMembers o⟩

end Model

end UmlSkeleton

import UmlSkeleton.Proofs.Layout.Paragraphs
import UmlSkeleton.Proofs.Python.Echoes
import UmlSkeleton.Proofs.Skeleton.Lines

/-!
# Blank lines in Python blocks

A Python block ends in one of its own lines, so it is this line that has to be told from a header. Blank lines
stand between the members of a class, above the first one only if there is a docstring, and in the docstring
of a method around the list of its arguments.

* `Paged` — a first line and sections with two blank lines before each.
* `neatBelow_methodDoc` — a docstring in two or three paragraphs.
* `neatBelow_classBlock` — the block of a class is neat, with headers as the lines that open something.
-/

namespace UmlSkeleton.Python

attribute [local irreducible] TypeToken.ofText

/-- The steps write a paragraph in which headers open and nothing closes. -/
abbrev NeatBelow (steps : List Step) : Prop := Neat isHeader (fun _ => false) steps

/-- Below a first line there are sections, with two blank lines before each. In the sections blank lines are
single and stand between other lines. No blank line is below a header, and none has spaces in it. -/
structure Paged (first : String) (sections : List (List String)) (ls : List String) : Prop where
  eq : ls = first :: sections.flatMap ("" :: "" :: ·)
  sections_tidy : ∀ s ∈ sections, s ≠ [] ∧ Tidy isHeader (fun _ => false) s
  below_header : ls.IsChain fun a b => isHeader a = true → isBlank b = false
  eq_empty : ∀ l ∈ ls, isBlank l = true → l = ""

/-- A text that does not end in a colon is no header. -/
theorem isHeader_of_getLast? {text : String} (h : text.toList.getLast? ≠ some ':') :
    isHeader text = false := by
  have hcontent : (content text).getLast? ≠ some ':' := by
    intro hlast
    obtain ⟨spaces, hsplit⟩ := List.dropWhile_suffix (l := text.toList) (· = ' ')
    apply h
    rw [← hsplit, List.getLast?_append]
    show (content text).getLast?.or _ = _
    rw [hlast, Option.some_or]
  rw [isHeader, decide_eq_false hcontent, Bool.and_false]

/-- Lines of which none is blank and none a header are a paragraph. -/
theorem paragraph_of_quiet {ls : List String} (hne : ls ≠ [])
    (h : ∀ l ∈ ls, isBlank l = false ∧ isHeader l = false) : Paragraph isHeader (fun _ => false) ls :=
  paragraph_of_not_blank hne (fun l hl => (h l hl).1) (fun _ _ => rfl)
    fun l hl => (h l (List.mem_of_getLast? hl)).2

theorem neatBelow_of_plain {text : String} {texts : List String} (h : ∀ t ∈ text :: texts, Plain t) :
    NeatBelow ((text :: texts).map .line) :=
  .lines (paragraph_of_quiet (by simp) fun t ht => ⟨(h t ht).flush.isBlank, (h t ht).quiet.2⟩)

theorem neatBelow_indented {header : String} {body : List Step} (htitle : Title header)
    (hbody : NeatBelow body) : NeatBelow (indented header body) :=
  hbody.indented htitle.flush.isBlank rfl

theorem neatBelow_initializer (parent : Option String) (c : Class) : NeatBelow (initializer parent c) := by
  obtain ⟨text, texts, hbody, hplain⟩ := exists_initializerBody_eq parent c
  rw [initializer_eq, hbody]
  exact neatBelow_indented (title_initializerHeader c) (neatBelow_of_plain hplain)

theorem neatBelow_strMethod (c : Class) : NeatBelow (strMethod c) := by
  have htitle : Title "def __str__(self) -> str:" := ⟨by decide, by decide, 'd', rfl, by decide⟩
  have hreturn : Plain ("return f\"" ++ shown c.name (c.properties.map (·.name)) ++ "\"") :=
    ⟨'r', by simp, by decide⟩
  exact neatBelow_indented htitle (neatBelow_of_plain (List.forall_mem_singleton.mpr hreturn))

/-! ### Docstrings -/

theorem isHeader_quotes : isHeader "\"\"\"" = false := by decide

theorem isBlank_typeText (t : TypeName) : isBlank (typeText t) = false := by
  have hwords : ∀ word ∈ pythonTypes, isBlank word = false := by decide
  exact hwords _ t.spelling_python_mem

theorem rowTexts_argumentDoc (m : Margin) (ps : List Parameter) :
    rowTexts m (argumentDoc ps) = "" :: "Args:" :: ps.map argument := by
  have hdedent (n : Margin) : rowTexts n [.dedent] = [] := rfl
  have hlines (n : Margin) : rowTexts n (ps.map fun p => .line (argument p)) = ps.map argument := by
    rw [← rowTexts_lines n (ps.map argument), List.map_map]
    rfl
  rw [argumentDoc, rowTexts_append, hdedent, List.append_nil, rowTexts_append]
  exact congrArg (["", "Args:"] ++ ·) (hlines _)

/-- The line says `method` or `parameter` in the end, so it is neither blank nor a header. -/
theorem quiet_append (s : String) {e : String} {c : Char} (hc : c ∈ e.toList) (hspace : c ≠ ' ')
    (hlast : e.toList.getLast? ≠ some ':') : isBlank (s ++ e) = false ∧ isHeader (s ++ e) = false := by
  have hne : e ≠ "" := by
    rintro rfl
    cases hc
  refine ⟨isBlank_of_mem (by simp [hc]) hspace, isHeader_of_getLast? ?_⟩
  rwa [getLast?_toList_append hne]

theorem paragraph_docFront (f : Method) :
    Paragraph isHeader (fun _ => false) ["\"\"\"", f.name ++ " method"] := by
  apply paragraph_of_quiet (by simp)
  rw [List.forall_mem_cons, List.forall_mem_singleton]
  exact ⟨by decide, quiet_append _ (c := 'm') (by decide) (by decide) (by decide)⟩

theorem paragraph_arguments (ps : List Parameter) :
    Paragraph isHeader (fun _ => false) ("Args:" :: ps.map argument) := by
  apply paragraph_of_quiet (by simp)
  rw [List.forall_mem_cons, List.forall_mem_map]
  exact ⟨by decide, fun p _ => quiet_append _ (c := 'p') (by decide) (by decide) (by decide)⟩

theorem paragraph_docBack (f : Method) :
    Paragraph isHeader (fun _ => false) ["Returns:", typeText f.type, "\"\"\""] := by
  refine paragraph_of_not_blank (by simp) ?_ (fun _ _ => rfl) fun l hl => ?_
  · rw [List.forall_mem_cons, List.forall_mem_cons, List.forall_mem_singleton]
    exact ⟨by decide, isBlank_typeText f.type, by decide⟩
  · cases hl
    exact isHeader_quotes

theorem neatBelow_methodDoc (f : Method) : NeatBelow (methodDoc f) := by
  refine ⟨fun d => run_methodDoc _ f, fun d => ?_⟩
  have hback (m : Margin) : rowTexts m (docBack f) = "" :: ["Returns:", typeText f.type, "\"\"\""] := rfl
  have hfront (m : Margin) : rowTexts m (docFront f) = ["\"\"\"", f.name ++ " method"] := rfl
  rw [methodDoc_eq_docFront, rowTexts_append, rowTexts_append, hback, hfront]
  cases f.parameters.isEmpty with
  | true =>
      have hnone (m : Margin) : rowTexts m (stepsIf (!true) (argumentDoc f.parameters)) = [] := rfl
      rw [hnone, List.append_nil]
      exact (paragraph_docFront f).gap (paragraph_docBack f)
  | false =>
      have hsome (m : Margin) : rowTexts m (stepsIf (!false) (argumentDoc f.parameters)) =
        "" :: "Args:" :: f.parameters.map argument := rowTexts_argumentDoc m f.parameters
      rw [hsome]
      exact ((paragraph_docFront f).gap (paragraph_arguments f.parameters)).gap (paragraph_docBack f)

/-! ### Methods and classes -/

/-- What a stub says below its docstring. -/
def bodyTexts (f : Method) : List String :=
  "# TODO: Implement method" :: if f.type.isVoid then [] else ["return None  # Placeholder return"]

theorem methodBody_eq (f : Method) : methodBody f = (bodyTexts f).map .line := by
  unfold methodBody bodyTexts
  cases f.type.isVoid with
  | true => rfl
  | false => rfl

theorem paragraph_bodyTexts (f : Method) : Paragraph isHeader (fun _ => false) (bodyTexts f) := by
  apply paragraph_of_quiet (by simp [bodyTexts])
  rw [bodyTexts, List.forall_mem_cons]
  refine ⟨by decide, ?_⟩
  split
  · exact List.forall_mem_nil _
  · rw [List.forall_mem_singleton]
    decide

theorem neatBelow_method (o : Options) (f : Method) : NeatBelow (method o f) := by
  rw [method_eq, methodBody_eq]
  apply neatBelow_indented (title_methodHeader f)
  cases o.docs with
  | true => exact (neatBelow_methodDoc f).append_lines (paragraph_bodyTexts f)
  | false => exact .lines (paragraph_bodyTexts f)

/-- The line in the docstring of a class may look like a header, but it is not the last one. -/
theorem neatBelow_classDoc (parent : Option String) (c : Class) : NeatBelow (classDoc parent c) := by
  have hname : isBlank (c.name ++ " class" ++ parent.elim "" (" inheriting from " ++ ·)) = false :=
    isBlank_of_mem (c := 'c') (by simp) (by decide)
  have htexts : Paragraph isHeader (fun _ => false)
      ["\"\"\"", c.name ++ " class" ++ parent.elim "" (" inheriting from " ++ ·), "\"\"\""] := by
    refine paragraph_of_not_blank (by simp) ?_ (fun _ _ => rfl) fun l hl => ?_
    · rw [List.forall_mem_cons, List.forall_mem_cons, List.forall_mem_singleton]
      exact ⟨by decide, hname, by decide⟩
    · cases hl
      exact isHeader_quotes
  exact .lines htexts

theorem neatBelow_classBlock (o : Options) (parent : Option String) (c : Class) :
    NeatBelow (classBlock o parent c) := by
  have hmembers : ∀ b ∈ members o parent c, NeatBelow b := by
    intro b hb
    simp only [members, List.mem_append, List.mem_cons, List.mem_map, Option.mem_toList] at hb
    rcases hb with (rfl | ⟨f, -, rfl⟩) | ⟨p, -, rfl⟩
    · exact neatBelow_initializer parent c
    · exact neatBelow_method o f
    · exact neatBelow_strMethod c
  apply neatBelow_indented (title_header parent c)
  cases o.docs with
  | true => exact (neatBelow_classDoc parent c).append_spaced hmembers
  | false => exact Neat.spaced hmembers (by simp [members])

end UmlSkeleton.Python

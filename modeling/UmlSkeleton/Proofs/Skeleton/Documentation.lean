import UmlSkeleton.Proofs.Layout.Alike
import UmlSkeleton.Proofs.Python.Bodies

/-!
# Documentation is inert

Documentation is asked for in a dozen places, and in PHP and Python it also brings blank lines along. This
module shows that it comes and goes without a trace: what is left of a skeleton once the documentation is
erased does not depend on whether there was any.

Each target has documentation of its own form, and one erasure for it: remarks in Java, lines of comment
blocks in PHP, docstrings in Python. The erasures know nothing of models; they look at lines alone. With
each goes a view of layouts, under which a class with documentation looks like one without.

* `Target.withoutDocs` — lines without the documentation of a target.
* `Java.alike_classBlock`, `Php.alike_classBlock`, `Python.alike_classBlock` — blocks that look alike.
* `docs_inert` — documentation leaves the rest of a skeleton as it is.
-/

namespace UmlSkeleton

open Text
open Python (content isQuotes content_line isQuotes_line isQuotes_of_mem)

/-! ## Erasing documentation -/

/-- The lines that are not empty. A line of spaces stays. -/
def withoutBlank (ls : List String) : List String := ls.filter (· ≠ "")

namespace Java

/-- The line is a remark on what stands below. -/
def isRemark (line : String) : Bool :=
  content line = "// Constructor".toList ||
    content line = "// Method can override parent class method if needed".toList

/-- What is remarked on the call of a parent's constructor, in the same line. -/
def callRemark : String := " // Call parent class constructor"

def withoutCallRemark (line : String) : String :=
  match line.toList.dropSuffix? callRemark.toList with
  | some front => String.ofList front
  | none => line

def withoutDocs (ls : List String) : List String := (ls.filter (!isRemark ·)).map withoutCallRemark

end Java

namespace Php

/-- The line begins a comment block, or goes on with it or ends it. -/
def isDoc (line : String) : Bool :=
  "/**".toList.isPrefixOf (content line) || "*".toList.isPrefixOf (content line)

def withoutDocs (ls : List String) : List String := ls.filter (!isDoc ·)

end Php

namespace Python

/-- The lines outside of docstrings; `quoted` tells whether one is open. -/
def outsideDocs (quoted : Bool) : List String → List String
  | [] => []
  | line :: more =>
    if isQuotes line then outsideDocs (!quoted) more
    else if quoted then outsideDocs quoted more
    else line :: outsideDocs quoted more

def withoutDocs (ls : List String) : List String := outsideDocs false ls

example : withoutDocs ["a", "  \"\"\"", "b", "  \"\"\"", "c"] = ["a", "c"] := by decide

end Python

/-- The lines without the documentation of the target. -/
def Target.withoutDocs : Target → List String → List String
  | .java => Java.withoutDocs
  | .php => Php.withoutDocs
  | .python => Python.withoutDocs

/-! ## Java -/

namespace Java

theorem withoutDocs_append (xs ys : List String) :
    withoutDocs (xs ++ ys) = withoutDocs xs ++ withoutDocs ys := by
  simp [withoutDocs]

def docsView : View := .fine withoutDocs

section
variable {w : Nat}

theorem alike_refl (steps : List Step) : docsView.Alike w steps steps :=
  View.alike_fine withoutDocs_append w steps

theorem isRemark_line (row : Row) : isRemark (row.line w) = isRemark row.text := by
  rw [isRemark, content_line, isRemark]

/-- A remark above a step that writes a row in any case. -/
theorem alike_remark {remark : String} (hremark : isRemark remark = true) {step : Step}
    (hstep : step.text?.isSome = true) : docsView.Alike w [.line remark, step] [step] := by
  -- Such a step does not ask whether a gap is due.
  have hstands (m : Margin) : step.after ⟨m.depth, true⟩ = step.after m ∧
      linesOf w ⟨m.depth, true⟩ [step] = linesOf w m [step] := by
    cases step <;> first | exact ⟨rfl, rfl⟩ | cases hstep
  have hline (d : Nat) : isRemark (Row.line w ⟨d, remark⟩) = true := (isRemark_line _).trans hremark
  rintro m n ⟨⟩
  refine ⟨(hstands m).1, View.same_of_append withoutDocs_append ?_⟩
  show withoutDocs (Row.line w ⟨m.depth, remark⟩ :: linesOf w ⟨m.depth, true⟩ [step]) =
    withoutDocs (linesOf w m [step])
  rw [(hstands m).2, withoutDocs, List.filter_cons_of_neg (by simp [hline]), ← withoutDocs]

theorem withoutCallRemark_append (line : String) : withoutCallRemark (line ++ callRemark) = line := by
  have hdrop : (line ++ callRemark).toList.dropSuffix? callRemark.toList = some line.toList :=
    List.dropSuffix?_eq_some_iff.mpr ⟨_, String.toList_append, beq_self_eq_true _⟩
  rw [withoutCallRemark, hdrop]
  exact String.ofList_toList

/-- A line with another end has no remark on a call. -/
theorem withoutCallRemark_of_getLast? {line : String}
    (h : line.toList.getLast? ≠ callRemark.toList.getLast?) : withoutCallRemark line = line := by
  have hdrop : line.toList.dropSuffix? callRemark.toList = none := by
    rw [Option.eq_none_iff_forall_ne_some]
    intro front hfront
    obtain ⟨rest, hline, hrest⟩ := List.dropSuffix?_eq_some_iff.mp hfront
    rw [eq_of_beq hrest] at hline
    exact h (by simp [hline, callRemark])
  rw [withoutCallRemark, hdrop]

/-- The call of a parent's constructor, with a remark and without. -/
theorem alike_call : docsView.Alike w [.line ("super();" ++ callRemark)] [.line "super();"] := by
  have hremark : isRemark ("super();" ++ callRemark) = false := by decide
  have hcall : isRemark "super();" = false := by decide
  have hline (d : Nat) : Row.line w ⟨d, "super();" ++ callRemark⟩ =
      Row.line w ⟨d, "super();"⟩ ++ callRemark := by
    rw [Row.line_of_ne w d (by decide), Row.line_of_ne w d (by decide), String.append_assoc]
  have hlast (d : Nat) : (Row.line w ⟨d, "super();"⟩).toList.getLast? ≠ callRemark.toList.getLast? := by
    rw [Row.line_of_ne w d (by decide), String.toList_append, List.getLast?_append_of_ne_nil _ (by decide)]
    decide
  rintro m n ⟨⟩
  refine ⟨rfl, View.same_of_append withoutDocs_append ?_⟩
  show withoutDocs [Row.line w ⟨m.depth, "super();" ++ callRemark⟩] =
    withoutDocs [Row.line w ⟨m.depth, "super();"⟩]
  rw [withoutDocs, withoutDocs, List.filter_cons_of_pos (by simp [isRemark_line, hremark]),
    List.filter_cons_of_pos (by simp [isRemark_line, hcall]), List.filter_nil, List.map_singleton,
    List.map_singleton, hline, withoutCallRemark_append, withoutCallRemark_of_getLast? (hlast _)]

end

section
variable (o : Options) (docs : Bool) (w : Nat)

theorem alike_constructor (parent : Option String) (c : Class) :
    docsView.Alike w (constructor { o with docs := docs } parent c)
      (constructor { o with docs := false } parent c) := by
  cases docs with
  | false => exact alike_refl _
  | true =>
      have hcall : docsView.Alike w
          (stepsIf parent.isSome [.line ("super();" ++ callRemark)])
          (stepsIf parent.isSome [.line "super();"]) := alike_call.stepsIf
      have hremark : docsView.Alike w
          [.line "// Constructor", .enter ("public " ++ c.name ++ "()" ++ " \x7b")]
          [.enter ("public " ++ c.name ++ "()" ++ " \x7b")] := alike_remark (by decide) rfl
      exact hremark.append (hcall.append (alike_refl [.leave "\x7d"]))

theorem alike_method (hasParent : Bool) (f : Method) :
    docsView.Alike w (method { o with docs := docs } hasParent f)
      (method { o with docs := false } hasParent f) := by
  have hremark : docsView.Alike w
      (stepsIf (hasParent && docs) [.line "// Method can override parent class method if needed"] ++
        [.line "// TODO: Implement method body"])
      [.line "// TODO: Implement method body"] := by
    cases hasParent && docs with
    | false => exact alike_refl _
    | true => exact alike_remark (by decide) rfl
  unfold method
  rw [Bool.and_false]
  exact View.Alike.braced (hremark.append (alike_refl _)) (alike_refl _) (alike_refl _)

theorem alike_classBlock (parent : Option String) (c : Class) :
    docsView.Alike w (classBlock { o with docs := docs } parent c)
      (classBlock { o with docs := false } parent c) := by
  have hsame (blocks : List (List Step)) : List.Forall₂ (docsView.Alike w) blocks blocks :=
    List.forall₂_same.mpr fun b _ => alike_refl b
  have hmethods := View.forall₂_map fun f (_ : f ∈ c.methods) => alike_method o docs w parent.isSome f
  have hmembers : List.Forall₂ (docsView.Alike w) (members { o with docs := docs } parent c)
      (members { o with docs := false } parent c) :=
    List.rel_append (List.rel_append (.cons (alike_constructor o docs w parent c) (hsame _)) hmethods)
      (hsame _)
  exact View.Alike.braced ((alike_refl _).append (View.Alike.spaced hmembers (alike_refl _)))
    (alike_refl _) (alike_refl _)

end

end Java

/-! ## PHP -/

namespace Php

/-- What is left of some lines. -/
def remains (ls : List String) : List String := withoutBlank (withoutDocs ls)

theorem remains_append (xs ys : List String) : remains (xs ++ ys) = remains xs ++ remains ys := by
  simp [remains, withoutBlank, withoutDocs]

def docsView : View := .coarse remains

section
variable {w : Nat}

theorem alike_refl (steps : List Step) : docsView.Alike w steps steps :=
  View.alike_coarse (remains_append [""]) fun _ _ _ _ _ => View.same_of_append remains_append rfl

/-- Steps that say nothing but documentation. -/
theorem alike_docs {steps : List Step} (hlevel : Level steps)
    (h : EachText (fun text => isDoc text = true) steps) : docsView.Alike w steps [] := by
  refine View.alike_nil hlevel fun m rest => ?_
  have hrows : ∀ r ∈ rows m steps, r.text = "" ∨ isDoc r.text = true :=
    forall_mem_rows (p := fun text => text = "" ∨ isDoc text = true) (.inl rfl)
      (fun step hstep text htext => .inr (h step hstep text htext)) m
  have hnone : remains (linesOf w m steps) = [] := by
    unfold remains withoutBlank withoutDocs linesOf
    rw [List.filter_filter, List.filter_eq_nil_iff, List.forall_mem_map]
    intro r hr
    rcases hrows r hr with hblank | hdoc
    · have hline : r.line w = "" := by simp [Row.line, hblank]
      simp [hline]
    · have hline : isDoc (r.line w) = true := by
        rw [isDoc, content_line, ← isDoc]
        exact hdoc
      simp [hline]
  rw [remains_append, hnone, List.nil_append]

/-- How a line goes on does not matter. -/
theorem isDoc_append {text : String} (h : isDoc text = true) (rest : String) :
    isDoc (text ++ rest) = true := by
  have hne : content text ≠ [] := by
    intro hnil
    rw [isDoc, hnil] at h
    cases h
  have hcontent : content (text ++ rest) = content text ++ rest.toList := by
    have hempty : (content text).isEmpty = false := by simpa using hne
    unfold content at hempty ⊢
    rw [String.toList_append, List.dropWhile_append, hempty]
    rfl
  unfold isDoc at h ⊢
  rw [Bool.or_eq_true, List.isPrefixOf_iff_prefix, List.isPrefixOf_iff_prefix] at h ⊢
  rw [hcontent]
  exact h.imp (·.trans (List.prefix_append _ _)) (·.trans (List.prefix_append _ _))

end

section
variable (o : Options) (docs : Bool) (w : Nat)

theorem alike_docBlock (texts : List String) :
    docsView.Alike w (docBlock { o with docs := docs } texts) (docBlock { o with docs := false } texts) := by
  cases docs with
  | false => exact alike_refl _
  | true =>
      refine alike_docs (level_docBlock _ texts) ?_
      show EachText _ ((.line "/**" :: texts.map fun l => .line (" * " ++ l)) ++ [.line " */"])
      rw [eachText_append, eachText_line_cons, eachText_map_line, eachText_line_cons]
      exact ⟨⟨by decide, fun l _ => isDoc_append (by decide) l⟩, by decide, eachText_nil⟩

theorem alike_property (p : Property) :
    docsView.Alike w (property { o with docs := docs } p) (property { o with docs := false } p) := by
  cases docs with
  | false => exact alike_refl _
  | true =>
      have hdoc : isDoc ("/** @var " ++ valueTypeText p.type ++ " */") = true := by
        rw [String.append_assoc]
        exact isDoc_append (by decide) _
      have hvar : docsView.Alike w [.gap, .line ("/** @var " ++ valueTypeText p.type ++ " */")] [] := by
        refine alike_docs (fun _ => rfl) ?_
        simpa [Step.text?] using hdoc
      exact hvar.append (alike_refl _)

/-- Documentation above something else. -/
theorem alike_documented {texts : List String} (steps : List Step) :
    docsView.Alike w (docBlock { o with docs := docs } texts ++ steps)
      (docBlock { o with docs := false } texts ++ steps) :=
  (alike_docBlock o docs w texts).append (alike_refl steps)

theorem alike_accessors (c : Class) : List.Forall₂ (docsView.Alike w)
    (accessors { o with docs := docs } c) (accessors { o with docs := false } c) := by
  unfold accessors
  cases o.phpAccessors with
  | false => exact .nil
  | true =>
      induction c.properties with
      | nil => exact .nil
      | cons p more ih =>
          exact .cons (alike_documented o docs w _) (.cons (alike_documented o docs w _) ih)

theorem alike_classBlock (parent : Option String) (c : Class) :
    docsView.Alike w (classBlock { o with docs := docs } parent c)
      (classBlock { o with docs := false } parent c) := by
  have hconstructor : docsView.Alike w (constructor { o with docs := docs } parent c)
      (constructor { o with docs := false } parent c) := alike_documented o docs w _
  have hmethods : List.Forall₂ (docsView.Alike w) (c.methods.map (method { o with docs := docs }))
      (c.methods.map (method { o with docs := false })) :=
    View.forall₂_map fun f _ => alike_documented o docs w _
  have hproperties : docsView.Alike w (c.properties.flatMap (property { o with docs := docs }))
      (c.properties.flatMap (property { o with docs := false })) :=
    View.Alike.flatMap fun p _ => alike_property o docs w p
  have hmembers : List.Forall₂ (docsView.Alike w) (members { o with docs := docs } parent c)
      (members { o with docs := false } parent c) :=
    List.rel_append (.cons hconstructor (alike_accessors o docs w c)) hmethods
  have hbody := hproperties.append (View.Alike.spaced hmembers (alike_refl _))
  exact (alike_docBlock o docs w _).append (hbody.braced (alike_refl _) (alike_refl _))

end

end Php

/-! ## Python -/

namespace Python

/-- What is left of some lines. -/
def remains (ls : List String) : List String := withoutBlank (withoutDocs ls)

def docsView : View := .coarse remains

/-- No text of the steps begins or ends a docstring. -/
def Unquoted (steps : List Step) : Prop := EachText (isQuotes · = false) steps

theorem outsideDocs_cons {line : String} (h : isQuotes line = false) (rest : List String) :
    outsideDocs false (line :: rest) = line :: outsideDocs false rest := by
  rw [outsideDocs, h]
  rfl

theorem outsideDocs_quoted {ls : List String} (h : ∀ line ∈ ls, isQuotes line = false)
    (rest : List String) : outsideDocs true (ls ++ rest) = outsideDocs true rest := by
  induction ls with
  | nil => rfl
  | cons line ls ih =>
      obtain ⟨hline, hmore⟩ := List.forall_mem_cons.mp h
      rw [List.cons_append, outsideDocs, hline]
      exact ih hmore

theorem outsideDocs_docstring {first last : String} {text : List String}
    (hfirst : isQuotes first = true) (hlast : isQuotes last = true)
    (h : ∀ line ∈ text, isQuotes line = false) (rest : List String) :
    outsideDocs false (first :: text ++ [last] ++ rest) = outsideDocs false rest := by
  rw [List.append_assoc, List.cons_append, outsideDocs, hfirst]
  show outsideDocs true (text ++ last :: rest) = _
  rw [outsideDocs_quoted h, outsideDocs, hlast]
  rfl

theorem remains_blank (rest : List String) : remains ("" :: rest) = remains rest := by
  rw [remains, withoutDocs, outsideDocs_cons (by decide)]
  rfl

section
variable {w : Nat}

theorem alike_refl {steps : List Step} (h : Unquoted steps) : docsView.Alike w steps steps := by
  refine View.alike_coarse remains_blank fun s hs text htext d => ?_
  have hline : isQuotes (Row.line w ⟨d, text⟩) = false := by
    rw [isQuotes_line]
    exact h s hs text htext
  have hcons (rest : List String) : remains (Row.line w ⟨d, text⟩ :: rest) =
      withoutBlank [Row.line w ⟨d, text⟩] ++ remains rest := by
    rw [remains, withoutDocs, outsideDocs_cons hline, ← withoutDocs, ← List.singleton_append,
      withoutBlank, List.filter_append]
    rfl
  intro rest rest' hrest
  show remains (_ :: rest) = remains (_ :: rest')
  rw [hcons, hcons]
  exact congrArg (_ ++ ·) hrest

/-- A docstring, whatever it says. -/
theorem alike_docstring {text : List Step} (hlevel : Level (quotes :: text ++ [quotes]))
    (h : Unquoted text) : docsView.Alike w (quotes :: text ++ [quotes]) [] := by
  refine View.alike_nil hlevel fun m rest => ?_
  obtain ⟨first, inner, last, hlines, hfirst, hlast, hinner⟩ := exists_linesOf_quoted w m h
  rw [hlines, remains, withoutDocs, outsideDocs_docstring hfirst hlast hinner]
  rfl

end

section
variable (o : Options) (docs : Bool) (w : Nat)

/-- A body with a docstring and without. -/
theorem alike_stepsIf {doc text : List Step} (hdoc : doc = quotes :: text ++ [quotes]) (hlevel : Level doc)
    (h : Unquoted text) : docsView.Alike w (stepsIf docs doc) (stepsIf false doc) := by
  cases docs with
  | false => exact View.Alike.nil
  | true =>
      subst hdoc
      exact alike_docstring hlevel h

theorem unquoted_initializer (parent : Option String) (c : Class) : Unquoted (initializer parent c) := by
  have hheader : isQuotes (initializerHeader c) = false :=
    isQuotes_of_isHeader (title_initializerHeader c).isHeader
  have hproperty (p : Property) : isQuotes ("self." ++ p.name ++ " = " ++ p.name) = false :=
    isQuotes_of_mem (c := 's') (by simp) (by decide) (by decide)
  rw [initializer_eq, Unquoted, eachText_indented, initializerBody, eachText_append, eachText_append,
    eachText_map_line]
  refine ⟨hheader, ⟨EachText.stepsIf fun _ => ?_, fun p _ => hproperty p⟩, EachText.stepsIf fun _ => ?_⟩
  · exact eachText_line_cons.mpr ⟨by decide, eachText_nil⟩
  · exact eachText_line_cons.mpr ⟨by decide, eachText_nil⟩

theorem unquoted_strMethod (c : Class) : Unquoted (strMethod c) := by
  rw [Unquoted, strMethod, eachText_indented, eachText_line_cons]
  exact ⟨by decide, isQuotes_of_mem (c := 'r') (by simp) (by decide) (by decide), eachText_nil⟩

theorem unquoted_methodBody (f : Method) : Unquoted (methodBody f) := by
  rw [Unquoted, methodBody, eachText_line_cons]
  exact ⟨by decide, EachText.stepsIf fun _ => eachText_line_cons.mpr ⟨by decide, eachText_nil⟩⟩

theorem unquoted_enter {header : String} (h : isHeader header = true) : Unquoted [.enter header] := by
  simpa [Unquoted, Step.text?] using isQuotes_of_isHeader h

theorem unquoted_gap : Unquoted [.gap] := by simp [Unquoted, Step.text?]

theorem unquoted_dedent : Unquoted [.dedent] := by simp [Unquoted, Step.text?]

/-- A header and the end of its block look like themselves. -/
theorem alike_indented {header : String} {xs ys : List Step} (hheader : isHeader header = true)
    (h : docsView.Alike w xs ys) : docsView.Alike w (indented header xs) (indented header ys) :=
  h.indented (alike_refl (unquoted_enter hheader)) (alike_refl unquoted_dedent)

theorem alike_method (f : Method) :
    docsView.Alike w (method { o with docs := docs } f) (method { o with docs := false } f) := by
  rw [method_eq, method_eq]
  refine alike_indented w (title_methodHeader f).isHeader ?_
  exact (alike_stepsIf docs w (methodDoc_eq f) (level_methodDoc f) (unquoted_methodDocText f)).append
    (alike_refl (unquoted_methodBody f))

theorem alike_classBlock (parent : Option String) (c : Class) :
    docsView.Alike w (classBlock { o with docs := docs } parent c)
      (classBlock { o with docs := false } parent c) := by
  have hmethods := View.forall₂_map fun f (_ : f ∈ c.methods) => alike_method o docs w f
  have hinitializer := alike_refl (w := w) (unquoted_initializer parent c)
  have hshow : List.Forall₂ (docsView.Alike w) (parent.toList.map fun _ => strMethod c)
      (parent.toList.map fun _ => strMethod c) :=
    View.forall₂_map fun _ _ => alike_refl (unquoted_strMethod c)
  have hmembers : List.Forall₂ (docsView.Alike w) (members { o with docs := docs } parent c)
      (members { o with docs := false } parent c) :=
    List.rel_append (.cons hinitializer hmethods) hshow
  have hgap : docsView.Alike w [.gap] [.gap] := alike_refl unquoted_gap
  refine alike_indented w (title_header parent c).isHeader ?_
  exact (alike_stepsIf docs w (classDoc_eq parent c) (fun _ => rfl)
    (unquoted_classDocText parent c)).append (View.Alike.spaced hmembers hgap)

end

end Python

/-! ## Skeletons -/

/-- The view under which the documentation of a target is not seen. -/
def Target.docsView : Target → View
  | .java => Java.docsView
  | .php => Php.docsView
  | .python => Python.docsView

/-- What it shows: the lines without documentation, of which Java keeps the blank ones. -/
theorem Target.shown_docsView :
    Target.java.docsView.shown = Java.withoutDocs ∧ Target.php.docsView.shown = Php.remains ∧
      Target.python.docsView.shown = Python.remains := ⟨rfl, rfl, rfl⟩

theorem Target.near_start (target : Target) : target.docsView.near .start .start := by
  cases target <;> rfl

/-- Steps look like themselves. Only a Python view has to know that they have no docstring. -/
theorem Target.alike_refl (target : Target) {w : Nat} {steps : List Step} (h : Python.Unquoted steps) :
    target.docsView.Alike w steps steps := by
  cases target with
  | java => exact Java.alike_refl steps
  | php => exact Php.alike_refl steps
  | python => exact Python.alike_refl h

theorem Target.unquoted_prologue (target : Target) : Python.Unquoted target.dialect.prologue := by
  cases target <;>
    simp +decide [Python.Unquoted, Target.dialect, Java.dialect, Php.dialect, Python.dialect]

theorem Target.unquoted_separator (target : Target) : Python.Unquoted target.dialect.separator := by
  cases target <;>
    simp [Python.Unquoted, Target.dialect, Java.dialect, Php.dialect, Python.dialect, Step.text?]

namespace Model

theorem unquoted_trailer (m : Model) (target : Target) : Python.Unquoted (m.trailer target) := by
  show EachText _ ((m.trailerLines target).map fun text => .line text)
  rw [eachText_map_line]
  intro text htext
  obtain ⟨rest, rfl⟩ := exists_of_mem_trailerLines htext
  cases target with
  | java => exact isQuotes_of_mem (c := '/') (by simp [Target.comment]) (by decide) (by decide)
  | php => exact isQuotes_of_mem (c := '/') (by simp [Target.comment]) (by decide) (by decide)
  | python => exact isQuotes_of_mem (c := '#') (by simp [Target.comment]) (by decide) (by decide)

section
variable (m : Model) (o : Options) (docs : Bool) (w : Nat) (target : Target)

theorem alike_block (c : Class) : target.docsView.Alike w (m.block { o with docs := docs } target c)
    (m.block { o with docs := false } target c) := by
  cases target with
  | java => exact Java.alike_classBlock o docs w _ c
  | php => exact Php.alike_classBlock o docs w _ c
  | python => exact Python.alike_classBlock o docs w _ c

/-- A skeleton with documentation looks like one without. -/
theorem alike_layout : target.docsView.Alike w (m.layout { o with docs := docs } target)
    (m.layout { o with docs := false } target) := by
  have hbetween := target.alike_refl (w := w) target.unquoted_separator
  have hclasses := View.Alike.flatMap fun c (_ : c ∈ m.classes) =>
    hbetween.append (m.alike_block o docs w target c)
  have htrailer := hbetween.append (target.alike_refl (m.unquoted_trailer target))
  exact ((target.alike_refl target.unquoted_prologue).append hclasses).append htrailer.stepsIf

end

/-- **Documentation is inert.** If no text of a model has a line end in it, two skeletons that differ only
in whether documentation was asked for are the same line by line, once the documentation of the target is
erased and blank lines are dropped. In Java no blank line comes with documentation, and none has to be
dropped. -/
theorem docs_inert {m : Model} (h : ∀ t ∈ m.texts, SingleLine t) (o : Options) (docs docs' : Bool) :
    (∀ target : Target,
      withoutBlank (target.withoutDocs (lines (m.skeleton { o with docs := docs } target))) =
        withoutBlank (target.withoutDocs (lines (m.skeleton { o with docs := docs' } target)))) ∧
    Java.withoutDocs (lines (m.skeleton { o with docs := docs } .java)) =
      Java.withoutDocs (lines (m.skeleton { o with docs := docs' } .java)) := by
  have hshown (target : Target) (docs : Bool) :
      target.docsView.shown (lines (m.skeleton { o with docs := docs } target)) =
        target.docsView.shown (linesOf o.indent .start (m.layout { o with docs := false } target)) := by
    rw [lines_skeleton (forall_written h)]
    exact (m.alike_layout o docs o.indent target).shown_eq target.near_start
  have hsame (target : Target) := (hshown target docs).trans (hshown target docs').symm
  obtain ⟨hjava, hphp, hpython⟩ := Target.shown_docsView
  have hsameJava := hsame .java
  have hsamePhp := hsame .php
  have hsamePython := hsame .python
  rw [hjava] at hsameJava
  rw [hphp] at hsamePhp
  rw [hpython] at hsamePython
  refine ⟨fun target => ?_, hsameJava⟩
  cases target with
  | java => exact congrArg withoutBlank hsameJava
  | php => exact hsamePhp
  | python => exact hsamePython

/-- A dog that is an animal, has a name and barks, with documentation and without. -/
theorem docs_inert_of_dog :
    let m : Model := ⟨[⟨1, "Animal", [], []⟩, ⟨2, "Dog", [⟨"name", ⟨"string"⟩, .ofText "private"⟩],
      [⟨"bark", ⟨"void"⟩, .ofText "public", []⟩]⟩], [⟨2, 1, .known .generalization, none, none⟩]⟩
    let written (docs : Bool) (target : Target) : List String :=
      lines (m.skeleton { Options.default with docs := docs } target)
    (∀ t ∈ m.texts, SingleLine t) ∧
      (∀ target : Target, withoutBlank (target.withoutDocs (written true target)) =
        withoutBlank (target.withoutDocs (written false target))) ∧
      Java.withoutDocs (written true .java) = Java.withoutDocs (written false .java) := by
  intro m written
  have htexts : ∀ t ∈ m.texts, SingleLine t := by decide
  exact ⟨htexts, docs_inert htexts .default true false⟩

end Model

end UmlSkeleton

import UmlSkeleton.Proofs.Python.Parts
import UmlSkeleton.Proofs.Skeleton.SingleLines

/-!
# The bodies of Python blocks

What is written below a header is put together from parts that may all be missing: a docstring, a call of
the parent, assignments, a placeholder. This module follows each part down to its lines, and finds that
only one kind of block is ever without a statement: that of a method that returns nothing, if no
documentation is written. Its only line is a comment.

* `part_initializer`, `part_strMethod` — blocks that always have a statement.
* `part_method` — a method has none exactly if it is a stub.
* `bareHeaders_skeleton` — the headers of a skeleton that have none, in order.
* `hasBodies_skeleton_iff` — when there are none of these.
-/

namespace UmlSkeleton.Python

open Text

/-! ## Initializers -/

/-- The header of an initializer. -/
def initializerHeader (c : Class) : String :=
  "def __init__(self" ++
    String.join (c.properties.map fun p =>
      ", " ++ p.name ++ ": " ++ optionalType (typeText p.type) ++ " = None") ++ "):"

def initializerBody (parent : Option String) (c : Class) : List Step :=
  stepsIf parent.isSome [.line "super().__init__()"] ++
    c.properties.map (fun p => .line ("self." ++ p.name ++ " = " ++ p.name)) ++
    stepsIf (parent.isNone && c.properties.isEmpty) [.line "pass"]

theorem initializer_eq (parent : Option String) (c : Class) :
    initializer parent c = indented (initializerHeader c) (initializerBody parent c) := by
  unfold initializer initializerHeader initializerBody
  rfl

theorem title_initializerHeader (c : Class) : Title (initializerHeader c) := by
  have hdef : "def ".toList <+: "def __init__(self".toList := by decide
  unfold initializerHeader
  rw [show "):" = ")" ++ ":" from rfl, ← String.append_assoc]
  refine title_append (.inr ?_)
  rw [String.append_assoc, String.toList_append]
  exact hdef.trans (List.prefix_append _ _)

/-- The first line is the call of the parent, the first property, or `pass`. -/
theorem exists_initializerBody_eq (parent : Option String) (c : Class) :
    ∃ text texts, initializerBody parent c = (text :: texts).map Step.line ∧
      ∀ t ∈ text :: texts, Plain t := by
  have hproperties : ∀ t ∈ c.properties.map fun p => "self." ++ p.name ++ " = " ++ p.name, Plain t := by
    rw [List.forall_mem_map]
    exact fun p _ => ⟨'s', by simp, by decide⟩
  have hcall : Plain "super().__init__()" := ⟨'s', rfl, by decide⟩
  have hpass : Plain "pass" := ⟨'p', rfl, by decide⟩
  unfold initializerBody
  cases parent with
  | some p =>
      refine ⟨_, _, ?_, List.forall_mem_cons.mpr ⟨hcall, hproperties⟩⟩
      simp [stepsIf, Function.comp_def]
  | none =>
      cases hc : c.properties with
      | nil => exact ⟨_, _, rfl, List.forall_mem_singleton.mpr hpass⟩
      | cons p more =>
          rw [hc] at hproperties
          refine ⟨_, _, ?_, hproperties⟩
          simp [stepsIf, Function.comp_def]

section
variable {w : Nat} (hw : 0 < w)
include hw

/-- A member whose body is some lines of plain text. -/
theorem part_lines {header text : String} {texts : List String} (ht : Title header)
    (h : ∀ t ∈ text :: texts, Plain t) :
    Part w 1 (indented header ((text :: texts).map .line)) [] := by
  have hsilent : Silent (linesOf w ⟨2, false⟩ ((text :: texts).map .line)) :=
    silent_lines fun t ht => (h t ht).quiet
  have hsettled : Settled (indented header ((text :: texts).map .line)) :=
    settled_indented (settled_lines (forall_mem_map_line _) (by simp))
  have hfirst : Plain text := h text (List.mem_cons_self ..)
  exact part_indented_first hw (Nat.le_refl 1) ht hsettled.level (fun rest _ => hsilent rest) rfl
    hfirst.flush hfirst.isStatement

theorem part_initializer (parent : Option String) (c : Class) :
    Part w 1 (initializer parent c) [] := by
  obtain ⟨text, texts, hbody, hplain⟩ := exists_initializerBody_eq parent c
  rw [initializer_eq, hbody]
  exact part_lines hw (title_initializerHeader c) hplain

theorem part_strMethod (c : Class) : Part w 1 (strMethod c) [] := by
  have htitle : Title "def __str__(self) -> str:" := ⟨by decide, by decide, 'd', rfl, by decide⟩
  have hreturn : Plain ("return f\"" ++ shown c.name (c.properties.map (·.name)) ++ "\"") :=
    ⟨'r', by simp, by decide⟩
  exact part_lines hw htitle (List.forall_mem_singleton.mpr hreturn)

end

/-! ## Docstrings -/

theorem isQuotes_quotes : isQuotes "\"\"\"" = true := by decide

theorem flush_quotes : Flush "\"\"\"" := ⟨'"', rfl, by decide⟩

theorem isStatement_quotes : isStatement "\"\"\"" = true :=
  flush_quotes.isStatement (by decide)

/-- Steps between quotation marks write lines between quotation marks. -/
theorem exists_linesOf_quoted (w : Nat) (m : Margin) {text : List Step}
    (h : EachText (isQuotes · = false) text) : ∃ first inner last,
      linesOf w m (quotes :: text ++ [quotes]) = first :: inner ++ [last] ∧ isQuotes first = true ∧
        isQuotes last = true ∧ ∀ line ∈ inner, isQuotes line = false := by
  have hquotes (depth : Nat) : isQuotes (Row.line w ⟨depth, "\"\"\""⟩) = true := by
    rw [isQuotes_line]
    exact isQuotes_quotes
  refine ⟨Row.line w ⟨m.depth, "\"\"\""⟩, linesOf w (m.run [quotes]) text,
    Row.line w ⟨(m.run (quotes :: text)).depth, "\"\"\""⟩, linesOf_append .., hquotes _, hquotes _, ?_⟩
  rw [linesOf, List.forall_mem_map]
  intro row hrow
  rw [isQuotes_line]
  exact forall_mem_rows (by decide) h _ row hrow

theorem silent_quoted (w : Nat) (m : Margin) {text : List Step} (h : EachText (isQuotes · = false) text) :
    Silent (linesOf w m (quotes :: text ++ [quotes])) := by
  obtain ⟨first, inner, last, hlines, hfirst, hlast, hinner⟩ := exists_linesOf_quoted w m h
  rw [hlines]
  exact silent_docstring hfirst hlast hinner

theorem isQuotes_typeText (t : TypeName) : isQuotes (typeText t) = false := by
  have hwords : ∀ word ∈ pythonTypes, isQuotes word = false := by decide
  exact hwords _ t.spelling_python_mem

/-- The docstring of a method without the lines that begin and end it. -/
def methodDocText (f : Method) : List Step :=
  .line (f.name ++ " method") :: stepsIf (!f.parameters.isEmpty) (argumentDoc f.parameters) ++
    [.blank, .line "Returns:", .indent, .line (typeText f.type), .dedent]

theorem methodDoc_eq (f : Method) : methodDoc f = quotes :: methodDocText f ++ [quotes] := by
  simp [methodDoc, methodDocText]

theorem unquoted_methodDocText (f : Method) : EachText (isQuotes · = false) (methodDocText f) := by
  have hname : isQuotes (f.name ++ " method") = false :=
    isQuotes_of_mem (c := 'm') (by simp) (by decide) (by decide)
  have hparameter (p : Parameter) : isQuotes (p.name ++ ": " ++ p.type.raw ++ " parameter") = false :=
    isQuotes_of_mem (c := 'p') (by simp) (by decide) (by decide)
  have harguments : EachText (isQuotes · = false) (argumentDoc f.parameters) := by
    unfold argumentDoc
    rw [eachText_append, eachText_append, eachText_map_line]
    exact ⟨⟨by simp +decide, fun p _ => hparameter p⟩, by simp [Step.text?]⟩
  rw [methodDocText, eachText_append, eachText_line_cons]
  refine ⟨⟨hname, EachText.stepsIf fun _ => harguments⟩, ?_⟩
  simp +decide [Step.text?, isQuotes_typeText]

theorem silent_methodDoc (w : Nat) (m : Margin) (f : Method) :
    Silent (linesOf w m (methodDoc f)) := by
  rw [methodDoc_eq]
  exact silent_quoted w m (unquoted_methodDocText f)

/-- What the docstring of a class says. -/
def classDocText (parent : Option String) (c : Class) : List Step :=
  [.line (c.name ++ " class" ++ parent.elim "" (" inheriting from " ++ ·))]

theorem classDoc_eq (parent : Option String) (c : Class) :
    classDoc parent c = quotes :: classDocText parent c ++ [quotes] := rfl

theorem unquoted_classDocText (parent : Option String) (c : Class) :
    EachText (isQuotes · = false) (classDocText parent c) :=
  eachText_line_cons.mpr
    ⟨isQuotes_of_mem (c := 'c') (by simp) (by decide) (by decide), eachText_nil⟩

theorem silent_classDoc (w : Nat) (m : Margin) (parent : Option String) (c : Class) :
    Silent (linesOf w m (classDoc parent c)) := by
  rw [classDoc_eq]
  exact silent_quoted w m (unquoted_classDocText parent c)

/-! ## Methods -/

/-- The header of a method. -/
def methodHeader (f : Method) : String :=
  "def " ++ f.name ++ "(self" ++
    String.join (f.parameters.map fun p => ", " ++ p.name ++ ": " ++ typeText p.type) ++ ") -> " ++
    typeText f.type ++ ":"

/-- The body of a method below its docstring. -/
def methodBody (f : Method) : List Step :=
  .line "# TODO: Implement method" ::
    stepsIf (!f.type.isVoid) [.line "return None  # Placeholder return"]

theorem method_eq (o : Options) (f : Method) :
    method o f = indented (methodHeader f) (stepsIf o.docs (methodDoc f) ++ methodBody f) := by
  rw [method, List.append_assoc, List.singleton_append, methodHeader, methodBody]

theorem title_methodHeader (f : Method) : Title (methodHeader f) := by
  unfold methodHeader
  refine title_append (.inr ?_)
  simp only [String.append_assoc, String.toList_append, List.prefix_append]

theorem flush_remark : Flush "# TODO: Implement method" := flush_comment " TODO: Implement method"

theorem quiet_remark : Quiet "# TODO: Implement method" := quiet_comment " TODO: Implement method"

theorem plain_placeholder : Plain "return None  # Placeholder return" := ⟨'r', rfl, by decide⟩

theorem silent_methodBody (w : Nat) (m : Margin) (f : Method) :
    Silent (linesOf w m (methodBody f)) := by
  apply silent_linesOf
  rw [methodBody, eachText_line_cons]
  refine ⟨quiet_remark, EachText.stepsIf fun _ => ?_⟩
  exact eachText_line_cons.mpr ⟨plain_placeholder.quiet, eachText_nil⟩

/-- The header of a method in the lines of its class, if nothing but a comment is written below it. -/
def stub (o : Options) (f : Method) : List String :=
  if !o.docs && f.type.isVoid then [Row.line o.indent ⟨1, methodHeader f⟩] else []

theorem part_stub {w : Nat} (f : Method) :
    Part w 1 (indented (methodHeader f) [.line "# TODO: Implement method"])
      [Row.line w ⟨1, methodHeader f⟩] := by
  have hlines (due : Bool) : linesOf w ⟨1, due⟩ (indented (methodHeader f)
      [.line "# TODO: Implement method"]) =
        [Row.line w ⟨1, methodHeader f⟩, Row.line w ⟨2, "# TODO: Implement method"⟩] :=
    linesOf_indented ..
  have hindent : indentation (Row.line w ⟨1, methodHeader f⟩) = w := by
    rw [(title_methodHeader f).flush.indentation_line, Nat.one_mul]
  refine ⟨(settled_indented (settled_line _)).level, ?_, ?_⟩
  · intro due rest _
    rw [hlines]
    exact (title_methodHeader f).flush.endsBlock (Nat.le_refl 1) w _
  · intro due rest hrest
    rw [hlines]
    refine bareHeaders_stub ?_ ?_ ?_ (by rwa [hindent])
    · rw [isHeader_line]
      exact (title_methodHeader f).isHeader
    · rw [isComment_line]
      decide
    · rw [isQuotes_line, isHeader_line]
      exact quiet_remark

/-- Nothing but a comment is written below a method without documentation and without a value. -/
theorem part_method {o : Options} (hw : 0 < o.indent) (f : Method) :
    Part o.indent 1 (method o f) (stub o f) := by
  have htitle := title_methodHeader f
  have hlevel := (settled_method o f).level
  have hsilent : Silent (linesOf o.indent ⟨2, false⟩ (stepsIf o.docs (methodDoc f) ++ methodBody f)) := by
    rw [linesOf_append]
    refine Silent.append ?_ (silent_methodBody _ _ f)
    cases o.docs with
    | true => exact silent_methodDoc _ _ f
    | false => exact fun _ => rfl
  rw [method_eq] at hlevel ⊢
  unfold stub
  cases hdocs : o.docs with
  | true =>
      rw [hdocs] at hlevel hsilent
      exact part_indented_first hw (Nat.le_refl 1) htitle hlevel (fun rest _ => hsilent rest) rfl
        flush_quotes isStatement_quotes
  | false =>
      rw [hdocs] at hlevel hsilent
      cases hvoid : f.type.isVoid with
      | true =>
          rw [methodBody, hvoid]
          exact part_stub f
      | false =>
          rw [methodBody, hvoid] at hlevel hsilent ⊢
          -- The placeholder is the statement, after the remark.
          have hlines : linesOf o.indent ⟨2, false⟩ [.line "# TODO: Implement method",
              .line "return None  # Placeholder return"] =
              [Row.line o.indent ⟨2, "# TODO: Implement method"⟩] ++
                Row.line o.indent ⟨2, "return None  # Placeholder return"⟩ :: [] := rfl
          refine part_indented hw (Nat.le_refl 1) htitle hlevel (fun rest _ => hsilent rest) hlines ?_ ?_
          · simp [flush_remark.indentation_line, plain_placeholder.flush.indentation_line]
          · rw [isStatement_line]
            exact plain_placeholder.isStatement

/-! ## Classes -/

theorem title_header (parent : Option String) (c : Class) : Title (header parent c) := by
  unfold header
  refine title_append (.inl ?_)
  simp only [String.append_assoc, String.toList_append, List.prefix_append]

section
variable {o : Options} (hw : 0 < o.indent) (parent : Option String) (c : Class)
include hw

theorem part_members :
    Part o.indent 1 (spaced (members o parent c)) (c.methods.flatMap (stub o)) := by
  have hinitializer : Part o.indent 1 (spaced [initializer parent c]) [] :=
    (Part.gap.append (part_initializer hw parent c)).append Part.nil
  have hmethods : Part o.indent 1 (spaced (c.methods.map (method o))) (c.methods.flatMap (stub o)) :=
    Part.spaced fun f _ => part_method hw f
  have hshow : Part o.indent 1 (spaced (parent.toList.map fun _ => strMethod c)) [] := by
    cases parent with
    | none => exact Part.nil
    | some p => exact (Part.gap.append (part_strMethod hw c)).append Part.nil
  have hmembers := (hinitializer.append hmethods).append hshow
  rw [List.nil_append, List.append_nil] at hmembers
  unfold members spaced
  rw [← List.singleton_append, List.flatMap_append, List.flatMap_append]
  exact hmembers

omit hw in
/-- The initializer comes first. -/
theorem exists_linesOf_members : ∃ more, linesOf o.indent ⟨1, false⟩ (spaced (members o parent c)) =
    Row.line o.indent ⟨1, initializerHeader c⟩ :: more := by
  unfold members spaced
  rw [List.cons_append, List.flatMap_cons, initializer_eq, ← List.singleton_append, List.append_assoc,
    linesOf_append, linesOf_append]
  exact ⟨_, rfl⟩

theorem part_classBlock :
    Part o.indent 0 (classBlock o parent c) (c.methods.flatMap (stub o)) := by
  have htitle := title_header parent c
  have hlevel := (settled_classBlock o parent c).level
  have hmembers := part_members hw parent c
  have hdoc : Part o.indent 1 (classDoc parent c) [] :=
    Part.of_silent (Nat.le_refl 1) (fun _ => rfl) (fun due => silent_classDoc _ ⟨1, due⟩ parent c)
      fun _ => ⟨_, _, rfl, flush_quotes⟩
  unfold classBlock at hlevel ⊢
  cases hdocs : o.docs with
  | true =>
      rw [hdocs] at hlevel
      exact part_indented_first hw (Nat.zero_le 1) htitle hlevel
        ((hdoc.append hmembers).bareHeaders false) rfl flush_quotes isStatement_quotes
  | false =>
      rw [hdocs] at hlevel
      have hinit := title_initializerHeader c
      obtain ⟨more, hlines⟩ := exists_linesOf_members (o := o) parent c
      exact part_indented_first hw (Nat.zero_le 1) htitle hlevel (hmembers.bareHeaders false) hlines
        hinit.flush hinit.isStatement

end

end UmlSkeleton.Python

/-! ## Skeletons -/

namespace UmlSkeleton.Model

open Text Python

variable {m : Model} {o : Options}

theorem part_trailer (w : Nat) : Part w 0 (m.trailer .python) [] := by
  refine Part.lines (Nat.zero_le 1) (flush_comment " Relationships:") ?_
  intro text htext
  obtain ⟨rest, rfl⟩ := exists_of_mem_trailerLines htext
  exact quiet_comment rest

theorem part_layout (hw : 0 < o.indent) :
    Part o.indent 0 (m.layout o .python)
      (m.classes.flatMap fun c => c.methods.flatMap (stub o)) := by
  have himport : Plain "from typing import Any, List, Optional" := ⟨'f', rfl, by decide⟩
  have hprologue : Part o.indent 0 Python.dialect.prologue [] :=
    Part.lines (Nat.zero_le 1) himport.flush (List.forall_mem_singleton.mpr himport.quiet)
  have hseparator : Part o.indent 0 Python.dialect.separator [] := Part.gap.append Part.blank
  have hclasses : Part o.indent 0
      (m.classes.flatMap fun c => Python.dialect.separator ++
        classBlock o (m.inheritance.parent? c.name) c)
      (m.classes.flatMap fun c => c.methods.flatMap (stub o)) :=
    Part.flatMap fun c _ => hseparator.append (part_classBlock hw _ c)
  have htrailer : Part o.indent 0 (stepsIf o.trailer (Python.dialect.separator ++ m.trailer .python)) [] :=
    Part.stepsIf (hseparator.append (part_trailer o.indent))
  have hlayout := (hprologue.append hclasses).append htrailer
  rw [List.nil_append, List.append_nil] at hlayout
  exact hlayout

section
variable (h : ∀ t ∈ m.texts, SingleLine t) (hw : 1 ≤ o.indent)
include h hw

/-- The headers without a statement are those of the stubs. -/
theorem bareHeaders_skeleton : bareHeaders false (lines (m.skeleton o .python)) =
    m.classes.flatMap fun c => c.methods.flatMap (stub o) := by
  have hbare := (part_layout (m := m) hw).bareHeaders false [] (endsBlock_nil _)
  rw [List.append_nil, bareHeaders, List.append_nil] at hbare
  rw [lines_skeleton (forall_written h) o .python]
  exact hbare

/-- **Bodies.** In Python every header of a class or a function has a statement in its block exactly if
documentation is written, or else every method has a value. A method with neither is left with a
comment. -/
theorem hasBodies_skeleton_iff : HasBodies (lines (m.skeleton o .python)) ↔
    o.docs = true ∨ ∀ c ∈ m.classes, ∀ f ∈ c.methods, f.type.isVoid = false := by
  rw [hasBodies_iff_bareHeaders, bareHeaders_skeleton h hw]
  cases hdocs : o.docs with
  | true => simp [List.flatMap_eq_nil_iff, stub, hdocs]
  | false => simp [List.flatMap_eq_nil_iff, stub, hdocs]

end

/-- A dog that barks, with documentation. -/
theorem hasBodies_of_dog :
    let m : Model := ⟨[⟨1, "Dog", [], [⟨"bark", ⟨"void"⟩, .ofText "", []⟩]⟩], []⟩
    (∀ t ∈ m.texts, SingleLine t) ∧ 1 ≤ Options.default.indent ∧
      HasBodies (lines (m.skeleton .default .python)) := by
  intro m
  have htexts : ∀ t ∈ m.texts, SingleLine t := by decide
  have hindent : 1 ≤ Options.default.indent := by decide
  exact ⟨htexts, hindent, (hasBodies_skeleton_iff htexts hindent).mpr (.inl rfl)⟩

/-- A dog that barks, without documentation: there is no statement below its last header. -/
theorem not_hasBodies_of_dog :
    let m : Model := ⟨[⟨1, "Dog", [], [⟨"bark", ⟨"void"⟩, .ofText "", []⟩]⟩], []⟩
    let o : Options := ⟨4, false, false, false⟩
    m.check = .ok () ∧ (∀ t ∈ m.texts, SingleLine t) ∧
      bareHeaders false (lines (m.skeleton o .python)) = ["    def bark(self) -> None:"] ∧
      ¬ HasBodies (lines (m.skeleton o .python)) := by
  intro m o
  have htexts : ∀ t ∈ m.texts, SingleLine t := by decide
  have hbare : bareHeaders false (lines (m.skeleton o .python)) = ["    def bark(self) -> None:"] := by
    rw [bareHeaders_skeleton htexts (by decide)]
    decide
  refine ⟨rfl, htexts, hbare, ?_⟩
  rw [hasBodies_iff_bareHeaders, hbare]
  exact List.cons_ne_nil _ _

end UmlSkeleton.Model

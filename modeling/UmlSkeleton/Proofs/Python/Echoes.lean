import UmlSkeleton.Proofs.Skeleton.Documentation

/-!
# Where a Python skeleton repeats a type as it was written

The docstring of a method lists the parameters below the line `Args:`, up to a blank line, each with its
type as it was written. These lines are the *echoes* of a skeleton. A scan of the lines finds them without
knowing what they say: it remembers whether a docstring is open, and whether its arguments are being listed
(`Region`).

* `withoutEchoes`, `echoes` — the other lines, and the echoes.
* `Echoing` — steps that leave no docstring open, with what they echo. There is one law for each way of
  putting layouts together.
* `echoing_classBlock` — the block of a class echoes the parameters of its methods, and nothing else.
* `alike_methodDoc` — docstrings that differ in their echoes alone are the same without them.
-/

namespace UmlSkeleton.Python

/-! ## Regions -/

/-- Where a line stands: outside of docstrings, in one of them, or where it lists arguments. -/
inductive Region where
  | outside
  | docstring
  | arguments
  deriving DecidableEq

namespace Region

/-- The line that comes before the arguments. -/
def isArgs (line : String) : Bool := content line = ['A', 'r', 'g', 's', ':']

/-- The region after a line. -/
def next : Region → String → Region
  | outside, line => if isQuotes line then docstring else outside
  | docstring, line => if isQuotes line then outside else if isArgs line then arguments else docstring
  | arguments, line => if line = "" then docstring else arguments

/-- The region after some lines. -/
def run (r : Region) (ls : List String) : Region := ls.foldl next r

theorem run_cons (r : Region) (line : String) (ls : List String) :
    r.run (line :: ls) = (r.next line).run ls := rfl

theorem run_append (r : Region) (xs ys : List String) : r.run (xs ++ ys) = (r.run xs).run ys :=
  List.foldl_append

/-- A line of this region repeats the type of a parameter. -/
def echoes (r : Region) (line : String) : Bool := r = arguments && line ≠ ""

end Region

/-- The lines that are echoes, or those that are none. -/
def pick (echo : Bool) : Region → List String → List String
  | _, [] => []
  | r, line :: more => (if r.echoes line = echo then [line] else []) ++ pick echo (r.next line) more

/-- The lines that repeat the type of a parameter. -/
def echoes (ls : List String) : List String := pick true .outside ls

/-- The lines without those that repeat the type of a parameter. -/
def withoutEchoes (ls : List String) : List String := pick false .outside ls

example : withoutEchoes ["\"\"\"", "f method", "", "Args:", "  x: Int parameter", "", "Returns:", "\"\"\"", "x"] =
    ["\"\"\"", "f method", "", "Args:", "", "Returns:", "\"\"\"", "x"] := by decide

theorem pick_append (echo : Bool) (r : Region) (xs ys : List String) :
    pick echo r (xs ++ ys) = pick echo r xs ++ pick echo (r.run xs) ys := by
  induction xs generalizing r with
  | nil => rfl
  | cons x xs ih =>
      rw [List.cons_append, pick, ih, pick, List.append_assoc]
      rfl

/-- Lines that do not lead out of a region are all echoes there, or none of them is. -/
theorem pick_of_stays {r : Region} {ls : List String} {e : Bool}
    (h : ∀ line ∈ ls, r.next line = r ∧ r.echoes line = e) (echo : Bool) :
    r.run ls = r ∧ pick echo r ls = if e = echo then ls else [] := by
  induction ls with
  | nil => exact ⟨rfl, (ite_self _).symm⟩
  | cons line ls ih =>
      obtain ⟨⟨hnext, hecho⟩, hmore⟩ := List.forall_mem_cons.mp h
      obtain ⟨hrun, hpick⟩ := ih hmore
      refine ⟨by rw [Region.run_cons, hnext, hrun], ?_⟩
      rw [pick, hnext, hpick, hecho]
      split <;> rfl

/-- Where no line is quotation marks, nothing is an echo. -/
theorem pick_outside {ls : List String} (h : ∀ line ∈ ls, isQuotes line = false) (echo : Bool) :
    Region.outside.run ls = .outside ∧ pick echo .outside ls = if false = echo then ls else [] :=
  pick_of_stays (fun line hline => by rw [Region.next, h line hline]; exact ⟨rfl, rfl⟩) echo

/-- Where nothing is an echo, all lines are left. -/
theorem withoutEchoes_eq_self {ls : List String} (h : echoes ls = []) : withoutEchoes ls = ls := by
  have hpick (r : Region) (ls : List String) (h : pick true r ls = []) : pick false r ls = ls := by
    induction ls generalizing r with
    | nil => rfl
    | cons line ls ih =>
        rw [pick] at h ⊢
        obtain ⟨hline, hmore⟩ := List.append_eq_nil_iff.mp h
        have hecho : r.echoes line = false := by
          cases hecho : r.echoes line with
          | false => rfl
          | true => rw [hecho] at hline; cases hline
        rw [hecho, ih _ hmore]
        rfl
  exact hpick _ _ h

/-! ## What steps echo -/

/-- The steps leave no docstring open, and this is what their echoes say. -/
structure Echoing (w : Nat) (steps : List Step) (out : List (List Char)) : Prop where
  closed : ∀ m, Region.outside.run (linesOf w m steps) = .outside
  echoes_eq : ∀ m, (echoes (linesOf w m steps)).map content = out

namespace Echoing

variable {w : Nat} {xs ys : List Step} {a b : List (List Char)}

theorem nil : Echoing w [] [] := ⟨fun _ => rfl, fun _ => rfl⟩

theorem append (hx : Echoing w xs a) (hy : Echoing w ys b) : Echoing w (xs ++ ys) (a ++ b) := by
  refine ⟨fun m => ?_, fun m => ?_⟩
  · rw [linesOf_append, Region.run_append, hx.closed, hy.closed]
  · rw [linesOf_append, echoes, pick_append, hx.closed, List.map_append]
    exact congrArg₂ _ (hx.echoes_eq m) (hy.echoes_eq _)

theorem flatMap {items : List α} {f : α → List Step} {g : α → List (List Char)}
    (h : ∀ i ∈ items, Echoing w (f i) (g i)) : Echoing w (items.flatMap f) (items.flatMap g) := by
  induction items with
  | nil => exact nil
  | cons i items ih =>
      obtain ⟨hi, hmore⟩ := List.forall_mem_cons.mp h
      rw [List.flatMap_cons, List.flatMap_cons]
      exact hi.append (ih hmore)

/-- Steps that write no quotation marks echo nothing. -/
theorem of_unquoted (h : Unquoted xs) : Echoing w xs [] := by
  have hlines (m : Margin) : ∀ line ∈ linesOf w m xs, isQuotes line = false := by
    rw [linesOf, List.forall_mem_map]
    intro row hrow
    rw [isQuotes_line]
    exact forall_mem_rows (by decide) h m row hrow
  refine ⟨fun m => (pick_outside (hlines m) true).1, fun m => ?_⟩
  exact congrArg (List.map content) (pick_outside (hlines m) true).2

theorem stepsIf (condition : Bool) (h : Echoing w xs a) :
    Echoing w (stepsIf condition xs) (if condition then a else []) := by
  cases condition with
  | false => exact nil
  | true => exact h

theorem indented {header : String} (hheader : isHeader header = true) (h : Echoing w xs a) :
    Echoing w (indented header xs) a := by
  have hblock := ((of_unquoted (unquoted_enter hheader)).append h).append (of_unquoted unquoted_dedent)
  rwa [List.append_nil] at hblock

end Echoing

/-! ## Docstrings -/

/-- What the docstring of a method says of a parameter. -/
def argument (p : Parameter) : String := p.name ++ ": " ++ p.type.raw ++ " parameter"

theorem linesOf_map_line (w : Nat) (m : Margin) (items : List α) (f : α → String) :
    linesOf w m (items.map fun i => .line (f i)) = items.map fun i => Row.line w ⟨m.depth, f i⟩ := by
  have hrows := rows_lines m (items.map f)
  rw [List.map_map, List.map_map] at hrows
  show (rows m (items.map (Step.line ∘ f))).map (Row.line w) = _
  rw [hrows, List.map_map]
  rfl

/-- What comes before the return type in the docstring of a method, and what comes with it. -/
def docFront (f : Method) : List Step := [quotes, .line (f.name ++ " method")]

def docBack (f : Method) : List Step :=
  [.blank, .line "Returns:", .indent, .line (typeText f.type), .dedent, quotes]

section
variable (w : Nat) (m : Margin)

theorem linesOf_docFront (f : Method) : linesOf w m (docFront f) =
    [Row.line w ⟨m.depth, "\"\"\""⟩, Row.line w ⟨m.depth, f.name ++ " method"⟩] := rfl

theorem linesOf_docBack (f : Method) : linesOf w m (docBack f) =
    ["", Row.line w ⟨m.depth, "Returns:"⟩, Row.line w ⟨m.depth + 1, typeText f.type⟩,
      Row.line w ⟨m.depth + 1 - 1, "\"\"\""⟩] := rfl

theorem linesOf_argumentDoc (ps : List Parameter) : linesOf w m (argumentDoc ps) =
    "" :: Row.line w ⟨m.depth, "Args:"⟩ :: ps.map fun p => Row.line w ⟨m.depth + 1, argument p⟩ := by
  have hdedent (m : Margin) : linesOf w m [.dedent] = [] := rfl
  rw [argumentDoc, linesOf_append, hdedent, List.append_nil, linesOf_append]
  refine congrArg₂ (· ++ ·) (rfl : _ = ["", Row.line w ⟨m.depth, "Args:"⟩]) ?_
  exact linesOf_map_line w _ ps argument

/-- The steps of a docstring in three parts. -/
theorem methodDoc_eq_docFront (f : Method) : methodDoc f =
    docFront f ++ stepsIf (!f.parameters.isEmpty) (argumentDoc f.parameters) ++ docBack f := rfl

end

section
variable {w : Nat} (echo : Bool)

theorem isArgs_line (row : Row) : Region.isArgs (row.line w) = Region.isArgs row.text := by
  rw [Region.isArgs, content_line, Region.isArgs]

/-- In a docstring a row stays in it if its text says neither that it ends nor that arguments follow. -/
theorem next_docstring {d : Nat} {text : String} (hquotes : isQuotes text = false)
    (hargs : Region.isArgs text = false) : Region.docstring.next (Row.line w ⟨d, text⟩) = .docstring := by
  rw [Region.next, isQuotes_line, hquotes, isArgs_line, hargs]
  rfl

theorem isArgs_of_mem {text : String} {c : Char} (h : c ∈ text.toList) (hspace : c ≠ ' ')
    (hargs : c ∉ ['A', 'r', 'g', 's', ':']) : Region.isArgs text = false := by
  rw [Region.isArgs, decide_eq_false_iff_not]
  exact fun heq => hargs (heq ▸ mem_content h hspace)

theorem isArgs_typeText (t : TypeName) : Region.isArgs (typeText t) = false := by
  have hwords : ∀ word ∈ pythonTypes, Region.isArgs word = false := by decide
  exact hwords _ t.spelling_python_mem

theorem isQuotes_quotesLine (d : Nat) : isQuotes (Row.line w ⟨d, "\"\"\""⟩) = true := by
  rw [isQuotes_line]
  exact isQuotes_quotes

/-- The quotation marks and the name of a method lead into its docstring. -/
theorem pick_docFront (m : Margin) (f : Method) :
    Region.outside.run (linesOf w m (docFront f)) = .docstring ∧
      pick echo .outside (linesOf w m (docFront f)) =
        if false = echo then linesOf w m (docFront f) else [] := by
  have hquotes : Region.outside.next (Row.line w ⟨m.depth, "\"\"\""⟩) = .docstring :=
    if_pos (isQuotes_quotesLine m.depth)
  have hname : Region.docstring.next (Row.line w ⟨m.depth, f.name ++ " method"⟩) = .docstring :=
    next_docstring (isQuotes_of_mem (c := 'm') (by simp) (by decide) (by decide))
      (isArgs_of_mem (c := 'm') (by simp) (by decide) (by decide))
  rw [linesOf_docFront]
  constructor
  · rw [Region.run_cons, hquotes, Region.run_cons, hname]
    rfl
  · rw [pick, hquotes, pick, hname, pick]
    cases echo <;> rfl

/-- What is said of parameters leads to where they are listed, and lists them. -/
theorem pick_argumentDoc (m : Margin) (ps : List Parameter) :
    Region.docstring.run (linesOf w m (argumentDoc ps)) = .arguments ∧
      pick echo .docstring (linesOf w m (argumentDoc ps)) =
        (if false = echo then ["", Row.line w ⟨m.depth, "Args:"⟩] else []) ++
          if true = echo then ps.map fun p => Row.line w ⟨m.depth + 1, argument p⟩ else [] := by
  have hblank : Region.docstring.next "" = .docstring := by decide
  have hargs : Region.docstring.next (Row.line w ⟨m.depth, "Args:"⟩) = .arguments := by
    rw [Region.next, isQuotes_line, isArgs_line]
    exact (by decide : Region.docstring.next "Args:" = .arguments)
  have hstays : ∀ line ∈ ps.map fun p => Row.line w ⟨m.depth + 1, argument p⟩,
      Region.arguments.next line = .arguments ∧ Region.arguments.echoes line = true := by
    intro line hline
    obtain ⟨p, -, rfl⟩ := List.mem_map.mp hline
    have hne : Row.line w ⟨m.depth + 1, argument p⟩ ≠ "" := by
      rw [Row.line_of_ne _ _ (by simp [argument])]
      simp [argument]
    exact ⟨if_neg hne, by simp [Region.echoes, hne]⟩
  have hlist := pick_of_stays hstays echo
  rw [linesOf_argumentDoc]
  constructor
  · rw [Region.run_cons, hblank, Region.run_cons, hargs, hlist.1]
  · rw [pick, hblank, pick, hargs, hlist.2]
    cases echo <;> rfl

/-- The blank line before the return type ends the list of parameters, if there is one, and the quotation
marks end the docstring. -/
theorem pick_docBack {r : Region} (hr : r = .docstring ∨ r = .arguments) (m : Margin) (f : Method) :
    r.run (linesOf w m (docBack f)) = .outside ∧
      pick echo r (linesOf w m (docBack f)) = if false = echo then linesOf w m (docBack f) else [] := by
  have hblank : r.next "" = .docstring ∧ r.echoes "" = false := by
    rcases hr with rfl | rfl <;> decide
  have hreturns : Region.docstring.next (Row.line w ⟨m.depth, "Returns:"⟩) = .docstring :=
    next_docstring (by decide) (by decide)
  have htype : Region.docstring.next (Row.line w ⟨m.depth + 1, typeText f.type⟩) = .docstring :=
    next_docstring (isQuotes_typeText f.type) (isArgs_typeText f.type)
  have hquotes : Region.docstring.next (Row.line w ⟨m.depth + 1 - 1, "\"\"\""⟩) = .outside :=
    if_pos (isQuotes_quotesLine (m.depth + 1 - 1))
  rw [linesOf_docBack]
  constructor
  · rw [Region.run_cons, hblank.1, Region.run_cons, hreturns, Region.run_cons, htype, Region.run_cons, hquotes]
    rfl
  · rw [pick, hblank.1, hblank.2, pick, hreturns, pick, htype, pick, hquotes, pick]
    cases echo <;> rfl

/-- Parameters are listed only if there are some. -/
theorem pick_arguments (m : Margin) (ps : List Parameter) :
    (Region.docstring.run (linesOf w m (stepsIf (!ps.isEmpty) (argumentDoc ps))) = .docstring ∨
      Region.docstring.run (linesOf w m (stepsIf (!ps.isEmpty) (argumentDoc ps))) = .arguments) ∧
      pick echo .docstring (linesOf w m (stepsIf (!ps.isEmpty) (argumentDoc ps))) =
        if echo then ps.map fun p => Row.line w ⟨m.depth + 1, argument p⟩
        else if ps.isEmpty then [] else ["", Row.line w ⟨m.depth, "Args:"⟩] := by
  cases ps with
  | nil => exact ⟨.inl rfl, by cases echo <;> rfl⟩
  | cons p ps =>
      obtain ⟨hrun, hpick⟩ := pick_argumentDoc (w := w) echo m (p :: ps)
      refine ⟨.inr hrun, hpick.trans ?_⟩
      cases echo with
      | false => exact List.append_nil _
      | true => rfl

/-- Of the docstring of a method the lines on its parameters are echoes, and no others. -/
theorem pick_methodDoc (m : Margin) (f : Method) :
    Region.outside.run (linesOf w m (methodDoc f)) = .outside ∧
      pick echo .outside (linesOf w m (methodDoc f)) =
        if echo then f.parameters.map fun p => Row.line w ⟨m.depth + 1, argument p⟩
        else linesOf w m (docFront f) ++
          (if f.parameters.isEmpty then [] else ["", Row.line w ⟨m.depth, "Args:"⟩]) ++
          linesOf w m (docBack f) := by
  obtain ⟨hfront, hpickFront⟩ := pick_docFront (w := w) echo m f
  obtain ⟨hregion, hpickArguments⟩ := pick_arguments (w := w) echo (m.run (docFront f)) f.parameters
  have hback (n : Margin) := pick_docBack (w := w) echo hregion n f
  have hdepth : (m.run (docFront f ++ stepsIf (!f.parameters.isEmpty) (argumentDoc f.parameters))).depth =
      m.depth := by
    rw [Margin.run_append]
    exact level_stepsIf (level_argumentDoc f.parameters) _
  have hlines (n : Margin) (h : n.depth = m.depth) : linesOf w n (docBack f) = linesOf w m (docBack f) := by
    rw [linesOf_docBack, linesOf_docBack, h]
  rw [methodDoc_eq_docFront, linesOf_append, linesOf_append]
  constructor
  · rw [Region.run_append, Region.run_append, hfront, (hback _).1]
  · rw [pick_append, pick_append, Region.run_append, hfront, hpickFront, hpickArguments, (hback _).2,
      hlines _ hdepth]
    cases echo with
    | false => rfl
    | true => exact List.append_nil _

theorem echoing_methodDoc (f : Method) :
    Echoing w (methodDoc f) (f.parameters.map fun p => content (argument p)) := by
  refine ⟨fun m => (pick_methodDoc true m f).1, fun m => ?_⟩
  rw [echoes, (pick_methodDoc true m f).2, if_pos rfl, List.map_map]
  exact List.map_congr_left fun p _ => content_line w _

/-- The docstring of a class says nothing of types. -/
theorem echoing_classDoc (parent : Option String) (c : Class) : Echoing w (classDoc parent c) [] := by
  have hfirst (d : Nat) : Region.outside.next (Row.line w ⟨d, "\"\"\""⟩) = .docstring :=
    if_pos (isQuotes_quotesLine d)
  have htext (d : Nat) : Region.docstring.next
      (Row.line w ⟨d, c.name ++ " class" ++ parent.elim "" (" inheriting from " ++ ·)⟩) = .docstring :=
    next_docstring (isQuotes_of_mem (c := 'c') (by simp) (by decide) (by decide))
      (isArgs_of_mem (c := 'c') (by simp) (by decide) (by decide))
  have hlast (d : Nat) : Region.docstring.next (Row.line w ⟨d, "\"\"\""⟩) = .outside :=
    if_pos (isQuotes_quotesLine d)
  have hlines (m : Margin) : linesOf w m (classDoc parent c) = [Row.line w ⟨m.depth, "\"\"\""⟩,
    Row.line w ⟨m.depth, c.name ++ " class" ++ parent.elim "" (" inheriting from " ++ ·)⟩,
    Row.line w ⟨m.depth, "\"\"\""⟩] := rfl
  refine ⟨fun m => ?_, fun m => ?_⟩
  · rw [hlines, Region.run_cons, hfirst, Region.run_cons, htext, Region.run_cons, hlast]
    rfl
  · rw [hlines, echoes, pick, hfirst, pick, htext, pick, hlast, pick]
    rfl

end

/-! ## Blocks and skeletons -/

section
variable (w : Nat) (o : Options)

theorem echoing_method (f : Method) : Echoing w (method o f)
    (if o.docs then f.parameters.map fun p => content (argument p) else []) := by
  have hbody := ((echoing_methodDoc f).stepsIf o.docs).append (Echoing.of_unquoted (w := w) (unquoted_methodBody f))
  rw [List.append_nil] at hbody
  rw [method_eq]
  exact hbody.indented (title_methodHeader f).isHeader

/-- The block of a class echoes the parameters of its methods, if there is documentation at all. -/
theorem echoing_classBlock (parent : Option String) (c : Class) : Echoing w (classBlock o parent c)
    (if o.docs then c.methods.flatMap fun f => f.parameters.map fun p => content (argument p) else []) := by
  have hgap : Echoing w [.gap] [] := .of_unquoted unquoted_gap
  have hinitializer := Echoing.of_unquoted (w := w) (unquoted_initializer parent c)
  have hmethods : Echoing w (spaced (c.methods.map (method o)))
      (c.methods.flatMap fun f => if o.docs then f.parameters.map fun p => content (argument p) else []) := by
    rw [spaced, List.flatMap_map]
    exact .flatMap fun f _ => hgap.append (echoing_method w o f)
  have hshow : Echoing w (spaced (parent.toList.map fun _ => strMethod c)) [] := by
    cases parent with
    | none => exact .nil
    | some p => exact hgap.append (.of_unquoted (unquoted_strMethod c))
  have hmembers : spaced (members o parent c) = .gap :: initializer parent c ++
      spaced (c.methods.map (method o)) ++ spaced (parent.toList.map fun _ => strMethod c) := by
    simp [members, spaced]
  have hbody := ((echoing_classDoc parent c).stepsIf o.docs).append
    (((hgap.append hinitializer).append hmethods).append hshow)
  have hout : (c.methods.flatMap fun f => if o.docs then f.parameters.map fun p => content (argument p) else []) =
      if o.docs then c.methods.flatMap fun f => f.parameters.map fun p => content (argument p) else [] := by
    cases o.docs <;> simp
  rw [classBlock, hmembers]
  refine Echoing.indented (title_header parent c).isHeader ?_
  rw [← hout]
  simpa using hbody

end

/-! ## Without echoes -/

/-- The view under which the echoes of a skeleton are not seen. -/
def echoView : View := .fine withoutEchoes

section
variable {w : Nat} {xs ys : List Step} {a b : List (List Char)}

theorem alike_of_echoing (hx : Echoing w xs a) (hy : Echoing w ys b) (hrun : ∀ m : Margin, m.run xs = m.run ys)
    (h : ∀ m, withoutEchoes (linesOf w m xs) = withoutEchoes (linesOf w m ys)) : echoView.Alike w xs ys := by
  rintro m n ⟨⟩
  refine ⟨hrun m, fun rest rest' hrest => ?_⟩
  show pick false .outside _ = pick false .outside _
  rw [pick_append, pick_append, hx.closed, hy.closed]
  exact congrArg₂ (· ++ ·) (h m) hrest

theorem Echoing.alike (h : Echoing w xs a) : echoView.Alike w xs xs :=
  alike_of_echoing h h (fun _ => rfl) fun _ => rfl

theorem alike_of_unquoted (h : Unquoted xs) : echoView.Alike w xs xs := (Echoing.of_unquoted h).alike

theorem alike_indented_of_isHeader {header : String} (hheader : isHeader header = true)
    (h : echoView.Alike w xs ys) : echoView.Alike w (indented header xs) (indented header ys) :=
  h.indented (alike_of_unquoted (unquoted_enter hheader)) (alike_of_unquoted unquoted_dedent)

theorem run_methodDoc (m : Margin) (f : Method) : m.run (methodDoc f) = ⟨m.depth, true⟩ := by
  have hdepth := level_methodDoc f m
  rw [methodDoc_eq, Margin.run_append] at hdepth ⊢
  show (⟨(m.run (quotes :: methodDocText f)).depth, true⟩ : Margin) = _
  rw [show (m.run (quotes :: methodDocText f)).depth = m.depth from hdepth]

/-- Docstrings that differ in their echoes alone look alike. -/
theorem alike_methodDoc {f g : Method} (hname : f.name = g.name) (htype : typeText f.type = typeText g.type)
    (hempty : f.parameters.isEmpty = g.parameters.isEmpty) :
    echoView.Alike w (methodDoc f) (methodDoc g) := by
  refine alike_of_echoing (echoing_methodDoc f) (echoing_methodDoc g) (fun m => ?_) fun m => ?_
  · rw [run_methodDoc, run_methodDoc]
  · have hfront : docFront f = docFront g := by rw [docFront, hname, ← docFront]
    have hback : docBack f = docBack g := by rw [docBack, htype, ← docBack]
    rw [withoutEchoes, (pick_methodDoc false m f).2, withoutEchoes, (pick_methodDoc false m g).2, hfront,
      hback, hempty]
    rfl

end

end UmlSkeleton.Python

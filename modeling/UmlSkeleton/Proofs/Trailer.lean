import UmlSkeleton.Proofs.Layout.Lines
import UmlSkeleton.Proofs.Skeleton.Sections

/-!
# What the trailer adds

The trailer is written after everything else, and nothing before it knows whether it will be. So a
skeleton with a trailer is the one without, a separator, and the lines of the trailer: the heading, and
one entry for each relationship that resolves, in order. The relationships without an entry are those
that are reported as dangling.

A kind and a multiplicity are texts of any form, and the trailer writes them as they are. With a line end
in one of them an entry goes on in the next line, which then is no comment unless the text happens to
begin one. `trailer_comments_iff` says that this is the only way for the trailer to be anything but a
comment.

* `skeleton_trailer` — the skeleton with the trailer, from the one without.
* `trailer_accounts` — every relationship has an entry or dangles.
* `trailer_comments_iff` — when the trailer is a comment, line by line.
-/

namespace UmlSkeleton

open Text

/-! ## Entries -/

/-- What an entry says about the multiplicity: nothing if there is none or it is empty. -/
def Relationship.note (r : Relationship) : String :=
  match r.multiplicity with
  | none => ""
  | some text => if text = "" then "" else " (Multiplicity: " ++ text ++ ")"

theorem Relationship.describe_eq_note (r : Relationship) (source other : Class) :
    r.describe source other =
      source.name ++ " " ++ r.kind.text ++ " " ++ other.name ++ r.note := by
  rw [describe_eq]
  congr 1
  unfold note effectiveMultiplicity
  cases r.multiplicity with
  | none => rfl
  | some text =>
      by_cases h : text = ""
      · simp [h, Option.filter]
      · simp [h, Option.filter]

namespace Model

/-- The entry of a relationship in the trailer, if both its keys are keys of classes. -/
def entryFor? (m : Model) (target : Target) (r : Relationship) : Option String := do
  let source ← m.classes.find? (·.key = r.source)
  let other ← m.classes.find? (·.key = r.target)
  return target.comment ++ " " ++ source.name ++ " " ++ r.kind.text ++ " " ++ other.name ++ r.note

/-- The heading of the trailer. -/
def trailerHeading (target : Target) : String := target.comment ++ " Relationships:"

/-- What stands between the classes and the trailer. -/
def trailerGap (m : Model) : Target → String
  | .java => if m.classes.isEmpty then "" else "\n"
  | .php => "\n"
  | .python => "\n\n"

variable (m : Model) (o : Options) (target : Target)

theorem entryFor?_eq (r : Relationship) :
    m.entryFor? target r =
      (m.ends? r).map fun (source, other) => target.comment ++ " " ++ r.describe source other := by
  unfold entryFor? ends? class?
  cases m.classes.find? (·.key = r.source) with
  | none => rfl
  | some source =>
      cases m.classes.find? (·.key = r.target) with
      | none => rfl
      | some other =>
          show some _ = some (target.comment ++ " " ++ r.describe source other)
          rw [Relationship.describe_eq_note]
          simp only [String.append_assoc]

theorem trailerLines_eq_entries :
    m.trailerLines target = trailerHeading target :: m.relationships.filterMap (m.entryFor? target) := by
  unfold trailerLines resolved
  rw [List.map_filterMap]
  congr 2
  funext r
  rw [entryFor?_eq, Option.map_map]
  rfl

/-! ## The text of the trailer -/

theorem trailerText_eq :
    m.trailerText o target = String.join ((m.trailerLines target).map (· ++ "\n")) := by
  have hlines (texts : List String) :
      (texts.map fun text => (⟨0, text⟩ : Row)).map (·.line o.indent) = texts := by
    rw [List.map_map]
    exact List.map_id'' (Row.line_margin o.indent) texts
  show textOfRows o.indent (rows .start ((m.trailerLines target).map .line)) = _
  rw [rows_lines, textOfRows_eq_join]
  exact congrArg (fun texts => String.join (texts.map (· ++ "\n"))) (hlines _)

/-! ## Before the trailer -/

/-- Whether a trailer is wanted shows in the last section only. -/
theorem sections_trailer :
    m.sections { o with trailer := true } target =
      m.sections { o with trailer := false } target ++ [m.trailer target] := by
  have hblock : m.block { o with trailer := true } target =
      m.block { o with trailer := false } target := by
    cases target with
    | java => rfl
    | php => rfl
    | python => rfl
  unfold sections
  rw [hblock, if_pos rfl, if_neg Bool.false_ne_true, List.append_nil]

/-- Without a trailer a page ends after a line, unless nothing is written at all. -/
theorem run_layout :
    Margin.run .start (m.layout { o with trailer := false } target) =
      ⟨0, target ≠ .java || !m.classes.isEmpty⟩ := by
  have hsections := m.settled_sections { o with trailer := false } target
  rw [layout_eq]
  cases target with
  | php => exact run_siblings rfl fun s hs => hsections s hs .start
  | python => exact run_siblings rfl fun s hs => hsections s hs .start
  | java =>
      have hs : m.sections { o with trailer := false } .java =
          m.classes.map (m.block { o with trailer := false } .java) := List.append_nil _
      rw [hs] at hsections ⊢
      -- Java begins with the first class, where no gap is due yet.
      cases hc : m.classes with
      | nil => rfl
      | cons c more =>
          rw [hc] at hsections
          have hfirst := hsections _ (List.mem_cons_self ..) .start
          have hmore : Margin.run ⟨0, true⟩ (List.flatMap ([.gap] ++ ·) _) = ⟨0, true⟩ :=
            run_siblings rfl fun t ht => hsections t (List.mem_cons_of_mem _ ht) .start
          rw [List.map_cons, List.flatMap_cons, Margin.run_append, Margin.run_append]
          exact (congrArg (Margin.run · _) hfirst).trans hmore

theorem skeleton_trailer :
    m.skeleton { o with trailer := true } target =
      m.skeleton { o with trailer := false } target ++ m.trailerGap target ++
        m.trailerText o target := by
  have hlayout : m.layout { o with trailer := true } target =
      m.layout { o with trailer := false } target ++
        (target.dialect.separator ++ m.trailer target) := by
    rw [layout_eq, sections_trailer, layout_eq, List.flatMap_append, List.flatMap_singleton,
      List.append_assoc]
  -- After the separator the trailer begins like a page, whether a gap was due or not.
  have hstart (due : Bool) : Margin.run ⟨0, due⟩ target.dialect.separator = .start :=
    target.run_separator _
  have hgap : textOfRows o.indent (rows ⟨0, target ≠ .java || !m.classes.isEmpty⟩
      target.dialect.separator) = m.trailerGap target := by
    unfold trailerGap
    cases target with
    | php => rfl
    | python => rfl
    | java => cases m.classes.isEmpty <;> rfl
  show textOfRows o.indent (rows .start _) = _
  rw [hlayout, rows_append, rows_append, run_layout, hstart, textOfRows_append, textOfRows_append,
    hgap, ← String.append_assoc]
  rfl

/-! ## Entries and dangling relationships -/

theorem isSome_entryFor? (r : Relationship) : (m.entryFor? target r).isSome = (m.ends? r).isSome := by
  rw [entryFor?_eq, Option.isSome_map]

theorem map_fst_resolved :
    m.resolved.map (·.1) = m.relationships.filter fun r => (m.ends? r).isSome := by
  rw [resolved, List.map_filterMap, ← List.filterMap_eq_filter]
  congr 1
  funext r
  cases h : m.ends? r with
  | none => simp [Option.guard, h]
  | some ends => simp [Option.guard, h]

/-- **Accounts.** A skeleton with a trailer is the same one without, a separator, the heading, and the
entries of the relationships in order, one a line; and a relationship has no entry exactly if it is
found to be dangling. -/
theorem trailer_accounts :
    m.skeleton { o with trailer := true } target =
        m.skeleton { o with trailer := false } target ++ m.trailerGap target ++
          String.join ((trailerHeading target :: m.relationships.filterMap (m.entryFor? target)).map
            (· ++ "\n")) ∧
      m.relationships.partition (fun r => (m.entryFor? target r).isSome) =
        (m.resolved.map (·.1), m.inspect.dangling) := by
  constructor
  · rw [skeleton_trailer, trailerText_eq, trailerLines_eq_entries]
  · rw [List.partition_eq_filter_filter, map_fst_resolved]
    simp only [isSome_entryFor?, inspect, dangling]
    congr 2
    funext r
    simp

/-! ## Lines of the trailer -/

end Model

theorem Relationship.singleLine_note_iff {r : Relationship} :
    SingleLine r.note ↔ ∀ text ∈ r.multiplicity, SingleLine text := by
  unfold note
  cases r.multiplicity with
  | none => simp [SingleLine]
  | some text =>
      by_cases h : text = ""
      · simp [h, SingleLine]
      · simp [h, SingleLine]

namespace Model

variable {m : Model} {target : Target}

/-- Every line that is written for the trailer begins a comment. -/
theorem exists_of_mem_trailerLines {text : String} (h : text ∈ m.trailerLines target) :
    ∃ rest, text = target.comment ++ rest := by
  rcases List.mem_cons.mp h with rfl | h
  · exact ⟨_, rfl⟩
  · obtain ⟨⟨r, source, other⟩, -, rfl⟩ := List.mem_map.mp h
    exact ⟨" " ++ r.describe source other, String.append_assoc⟩

/-- What is written for the trailer is on single lines exactly if the kinds and multiplicities are. -/
theorem singleLine_trailerLines_iff (hnames : ∀ c ∈ m.classes, SingleLine c.name) :
    (∀ text ∈ m.trailerLines target, SingleLine text) ↔
      ∀ e ∈ m.resolved, SingleLine e.1.kind.text ∧ ∀ text ∈ e.1.multiplicity, SingleLine text := by
  have hcomment : SingleLine target.comment := by cases target <;> decide
  have hspace : SingleLine " " := by decide
  have hheading : SingleLine " Relationships:" := by decide
  unfold trailerLines
  rw [List.forall_mem_cons, List.forall_mem_map, singleLine_append]
  simp only [hcomment, hheading, true_and]
  refine forall₂_congr fun ⟨r, source, other⟩ he => ?_
  obtain ⟨hsource, hother⟩ := mem_classes_of_mem_resolved he
  simp only [Relationship.describe_eq_note, singleLine_append, Relationship.singleLine_note_iff,
    hcomment, hspace, hnames source hsource, hnames other hother, true_and, and_true]

/-- **Comments.** The part of a skeleton that the trailer adds is a comment in every line, with one line
for the heading and one for each relationship that resolves, exactly if no kind and no multiplicity of
these relationships has a line end in it. -/
theorem trailer_comments_iff (hnames : ∀ c ∈ m.classes, SingleLine c.name) (o : Options)
    (target : Target) :
    m.skeleton { o with trailer := true } target =
        m.skeleton { o with trailer := false } target ++ m.trailerGap target ++
          m.trailerText o target ∧
      ((∀ line ∈ lines (m.trailerText o target), ∃ rest, line = target.comment ++ rest) ∧
          (lines (m.trailerText o target)).length = 1 + m.resolved.length ↔
        ∀ e ∈ m.resolved,
          SingleLine e.1.kind.text ∧ ∀ text ∈ e.1.multiplicity, SingleLine text) := by
  have hlength : (m.trailerLines target).length = 1 + m.resolved.length := by
    simp [trailerLines, Nat.add_comm]
  refine ⟨m.skeleton_trailer o target, ?_⟩
  rw [trailerText_eq, ← singleLine_trailerLines_iff hnames, ← hlength]
  constructor
  · rintro ⟨-, hlines⟩
    exact length_lines_join_iff.mp hlines
  · intro hsingle
    rw [lines_join hsingle]
    exact ⟨fun line hline => exists_of_mem_trailerLines hline, rfl⟩

/-- An order has a customer and items; the third relationship leads nowhere. -/
theorem trailer_of_order :
    let m : Model := ⟨[⟨1, "Order", [], []⟩, ⟨2, "Customer", [], []⟩, ⟨3, "Item", [], []⟩],
      [⟨1, 2, .known .association, none, some "1"⟩, ⟨1, 3, .ofText "has many", none, some "0..*"⟩,
        ⟨1, 9, .ofText "one\ntwo", none, none⟩]⟩
    (∀ c ∈ m.classes, SingleLine c.name) ∧
      (∀ line ∈ lines (m.trailerText .default .python), ∃ rest, line = "#" ++ rest) ∧
      (lines (m.trailerText .default .python)).length = 3 := by
  intro m
  have hnames : ∀ c ∈ m.classes, SingleLine c.name := by decide
  have hsingle : ∀ e ∈ m.resolved,
      SingleLine e.1.kind.text ∧ ∀ text ∈ e.1.multiplicity, SingleLine text := by decide
  obtain ⟨hcomments, hlength⟩ := (trailer_comments_iff hnames .default .python).2.mpr hsingle
  exact ⟨hnames, hcomments, hlength⟩

/-- A model without defects, whose only relationship has a line end in its kind: the entry goes on in a
line that imports a module. -/
theorem trailer_imports :
    let m : Model := ⟨[⟨1, "A", [], []⟩], [⟨1, 1, .ofText "is\nimport os #", none, none⟩]⟩
    m.check = .ok () ∧ (∀ c ∈ m.classes, SingleLine c.name) ∧
      lines (m.trailerText .default .python) = ["# Relationships:", "# A is", "import os # A"] ∧
      ¬ ∀ line ∈ lines (m.trailerText .default .python), ∃ rest, line = "#" ++ rest := by
  intro m
  have hlines : lines (m.trailerText .default .python) =
      ["# Relationships:", "# A is", "import os # A"] := by decide
  refine ⟨rfl, by decide, hlines, ?_⟩
  rw [hlines]
  intro h
  obtain ⟨rest, hrest⟩ := h "import os # A" (by simp)
  have hhead := congrArg (·.toList.head?) hrest
  simp at hhead

end Model

end UmlSkeleton

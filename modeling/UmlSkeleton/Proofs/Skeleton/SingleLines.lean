import UmlSkeleton.Proofs.Skeleton.Braces

/-!
# Skeletons of models with texts on single lines

Blocks are put together from the texts of a model and from words of the target, and no such word has a
line end in it. So if what is written of the model has none, then the rows of a skeleton are its lines.
Java and PHP blocks stand in braces, and are known to bring in no framing character. Python blocks write
braces of their own, so their lines are looked at here.

* `Python.eachText_classBlock` — what is written for a class is on single lines.
* `Model.lines_skeleton` — the lines of a skeleton, in any target.
-/

namespace UmlSkeleton

open Text

/-! ## Python -/

namespace Python

theorem singleLine_typeText (t : TypeName) : SingleLine (typeText t) := by
  unfold typeText TypeName.spelling
  cases t.token with
  | custom text => exact (by decide : SingleLine "Any")
  | known type => cases type <;> simp [SingleLine, TypeToken.spelling]

theorem singleLine_optionalType {spelling : String} (h : SingleLine spelling) :
    SingleLine (optionalType spelling) := by
  unfold optionalType
  split
  · exact h
  · simp +decide [h]

theorem singleLine_shown {className : String} {properties : List String}
    (hname : SingleLine className) (h : ∀ name ∈ properties, SingleLine name) :
    SingleLine (shown className properties) := by
  have hvalues : SingleLine
      (commaList (properties.map fun name => name ++ "=\x7bself." ++ name ++ "\x7d")) := by
    apply SingleLine.intercalate (by decide)
    intro text htext
    obtain ⟨name, hmem, rfl⟩ := List.mem_map.mp htext
    simp +decide [h name hmem]
  unfold shown
  simp +decide [hname, hvalues]

section
variable {c : Class} (hc : ∀ t ∈ c.written, SingleLine t)
include hc

theorem eachText_initializer (parent : Option String) :
    EachText SingleLine (initializer parent c) := by
  obtain ⟨-, hproperties, -⟩ := Class.forall_names_iff.mp (Class.forall_written_iff.mp hc).1
  unfold initializer
  rw [eachText_indented, eachText_append, eachText_append, eachText_map_line]
  refine ⟨?_, ⟨?_, ?_⟩, ?_⟩
  · rw [singleLine_append, singleLine_append, singleLine_join, List.forall_mem_map]
    refine ⟨⟨by decide, ?_⟩, by decide⟩
    intro p hp
    simp +decide [hproperties p hp, singleLine_optionalType (singleLine_typeText p.type)]
  · exact EachText.stepsIf fun _ => by simp +decide
  · intro p hp
    simp +decide [hproperties p hp]
  · exact EachText.stepsIf fun _ => by simp +decide

theorem eachText_strMethod : EachText SingleLine (strMethod c) := by
  obtain ⟨hname, hproperties, -⟩ := Class.forall_names_iff.mp (Class.forall_written_iff.mp hc).1
  have hshown : SingleLine (shown c.name (c.properties.map (·.name))) :=
    singleLine_shown hname (List.forall_mem_map.mpr hproperties)
  unfold strMethod
  simp +decide [Step.text?, hshown]

theorem eachText_method (o : Options) {f : Method} (hf : f ∈ c.methods) :
    EachText SingleLine (method o f) := by
  obtain ⟨hnames, htypes⟩ := Class.forall_written_iff.mp hc
  obtain ⟨hname, hparameters⟩ := (Class.forall_names_iff.mp hnames).2.2 f hf
  have hraw := ((Class.forall_typeTexts_iff.mp htypes).2 f hf).2
  have htype := singleLine_typeText f.type
  have harguments : EachText SingleLine (argumentDoc f.parameters) := by
    unfold argumentDoc
    rw [eachText_append, eachText_append, eachText_map_line]
    refine ⟨⟨by simp +decide, ?_⟩, by simp [Step.text?]⟩
    intro p hp
    simp +decide [hparameters p hp, hraw p hp]
  have hdoc : EachText SingleLine (methodDoc f) := by
    unfold methodDoc quotes
    rw [eachText_append, eachText_append]
    refine ⟨⟨?_, EachText.stepsIf fun _ => harguments⟩, ?_⟩
    · simp +decide [Step.text?, hname]
    · simp +decide [Step.text?, htype]
  unfold method
  rw [eachText_indented, eachText_append, eachText_append]
  refine ⟨?_, ⟨EachText.stepsIf fun _ => hdoc, by simp +decide⟩,
    EachText.stepsIf fun _ => by simp +decide⟩
  have hlist : ∀ p ∈ f.parameters, SingleLine p.name ∧ SingleLine (typeText p.type) :=
    fun p hp => ⟨hparameters p hp, singleLine_typeText p.type⟩
  simpa +decide [hname, htype] using hlist

theorem eachText_classBlock (o : Options) {parent : Option String}
    (hparent : ∀ p ∈ parent, SingleLine p) : EachText SingleLine (classBlock o parent c) := by
  obtain ⟨hname, -, -⟩ := Class.forall_names_iff.mp (Class.forall_written_iff.mp hc).1
  unfold classBlock
  rw [eachText_indented, eachText_append, eachText_spaced]
  refine ⟨?_, EachText.stepsIf fun _ => ?_, ?_⟩
  · unfold header
    cases parent with
    | none => simp +decide [hname]
    | some p => simp +decide [hname, hparent p rfl]
  · unfold classDoc quotes
    cases parent with
    | none => simp +decide [Step.text?, hname]
    | some p => simp +decide [Step.text?, hname, hparent p rfl]
  · intro b hb
    simp only [members, List.mem_append, List.mem_cons, List.mem_map, Option.mem_toList] at hb
    rcases hb with (rfl | ⟨f, hf, rfl⟩) | ⟨p, -, rfl⟩
    · exact eachText_initializer hc parent
    · exact eachText_method hc o hf
    · exact eachText_strMethod hc

end

end Python

/-! ## Skeletons -/

namespace Model

variable {m : Model} (h : ∀ t ∈ m.written, SingleLine t)
include h

theorem eachText_layout (o : Options) (target : Target) : EachText SingleLine (m.layout o target) := by
  have hwritten : ∀ t ∈ m.written, Without isLineEnd t :=
    fun t ht => without_isLineEnd_iff.mpr (h t ht)
  have hbraces {steps : List Step} (hsteps : InBraces (Without isLineEnd) steps) :
      EachText SingleLine steps := by
    refine hsteps.eachText (fun _ => without_isLineEnd_iff.mp) (fun text htext => ?_) (by decide)
    exact singleLine_append.mpr ⟨without_isLineEnd_iff.mp htext, by decide⟩
  by_cases htarget : target = .python
  · have htrailer := hbraces (inBraces_trailer isFraming_of_isLineEnd hwritten .python)
    have hclasses := (forall_written_iff.mp h).1
    have hseparator : EachText SingleLine Python.dialect.separator := by
      simp [Python.dialect, Step.text?]
    rw [htarget, layout, eachText_append, eachText_append, eachText_flatMap]
    refine ⟨⟨by simp +decide [Target.dialect, Python.dialect], fun c hc => ?_⟩,
      EachText.stepsIf fun _ => eachText_append.mpr ⟨hseparator, htrailer⟩⟩
    exact eachText_append.mpr
      ⟨hseparator, Python.eachText_classBlock (hclasses c hc) o (forall_mem_parent? (forall_mem_name h) c.name)⟩
  · exact hbraces (inBraces_layout isFraming_of_isLineEnd hwritten o htarget)

/-- The lines of a skeleton are the rows of its layout. -/
theorem lines_skeleton (o : Options) (target : Target) :
    lines (m.skeleton o target) = linesOf o.indent .start (m.layout o target) :=
  lines_layOut (eachText_layout h o target) o.indent

end Model

end UmlSkeleton

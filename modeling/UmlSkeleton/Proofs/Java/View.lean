import UmlSkeleton.Proofs.Layout.Texts
import UmlSkeleton.Proofs.Model.Texts
import UmlSkeleton.Proofs.Skeleton.Sections
import UmlSkeleton.Proofs.Text.Case
import UmlSkeleton.Proofs.Text.Readable

/-!
# What Java shows of a class

A Java skeleton shows of a class its name and its parent, of a field and of a method the modifier, the type
as Java spells it and the name, and of a method the types and names of its parameters. This is the *view*
of a class. Nothing else of a class has an effect on its block (`classBlock_congr`), not even whether a
method returns a value: the type shows it.

* `Class.Plain` — every name is a word, and every type is blank or a word.
* `rowTexts_classBlock` — the rows of the block of a class, one member after the other.
* `eachText_classBlock` — for plain classes no row says anything that looks like indentation.
-/

namespace UmlSkeleton

open Text

/-! ## Views -/

namespace Java

structure FieldView where
  modifier : Option String
  type : String
  name : String
  deriving DecidableEq, Repr

structure ParameterView where
  type : String
  name : String
  deriving DecidableEq, Repr

structure MethodView where
  modifier : Option String
  type : String
  name : String
  parameters : List ParameterView
  deriving DecidableEq, Repr

structure ClassView where
  name : String
  parent : Option String
  fields : List FieldView
  methods : List MethodView
  deriving DecidableEq, Repr

def fieldView (p : Property) : FieldView :=
  ⟨fieldModifier? p.visibility, typeText p.type, p.name⟩

def parameterView (p : Parameter) : ParameterView := ⟨typeText p.type, p.name⟩

def methodView (f : Method) : MethodView :=
  ⟨methodModifier? f.visibility, typeText f.type, f.name, f.parameters.map parameterView⟩

def classView (parent : Option String) (c : Class) : ClassView :=
  ⟨c.name, parent, c.properties.map fieldView, c.methods.map methodView⟩

end Java

/-- The views of the classes of a model, in order, each with the parent that the model gives it. -/
def Model.javaViews (m : Model) : List Java.ClassView :=
  m.classes.map fun c => Java.classView (m.inheritance.parent? c.name) c

/-! ## Plain classes -/

/-- The type is blank or a word. -/
def TypeName.Plain (t : TypeName) : Prop := allBlank t.raw = true ∨ Word t.raw

instance (t : TypeName) : Decidable t.Plain := inferInstanceAs (Decidable (_ ∨ _))

def Parameter.Plain (p : Parameter) : Prop := Word p.name ∧ p.type.Plain

instance (p : Parameter) : Decidable p.Plain := inferInstanceAs (Decidable (_ ∧ _))

def Property.Plain (p : Property) : Prop := Word p.name ∧ p.type.Plain

instance (p : Property) : Decidable p.Plain := inferInstanceAs (Decidable (_ ∧ _))

def Method.Plain (f : Method) : Prop :=
  Word f.name ∧ f.type.Plain ∧ ∀ p ∈ f.parameters, p.Plain

instance (f : Method) : Decidable f.Plain := inferInstanceAs (Decidable (_ ∧ _ ∧ _))

/-- Every name is a word, and every type is blank or a word. -/
def Class.Plain (c : Class) : Prop :=
  Word c.name ∧ (∀ p ∈ c.properties, p.Plain) ∧ ∀ f ∈ c.methods, f.Plain

instance (c : Class) : Decidable c.Plain := inferInstanceAs (Decidable (_ ∧ _ ∧ _))

/-! ## Types -/

namespace Java

theorem word_typeText {t : TypeName} (h : t.Plain) : Word (typeText t) := by
  unfold typeText TypeName.spelling
  rcases t.token_cases with ⟨type, htoken⟩ | ⟨-, htoken⟩
  · rw [htoken]
    cases type <;> decide
  · rw [htoken]
    show Word (if allBlank t.raw then "Object" else t.raw)
    split
    · decide
    · next hblank => exact h.resolve_left hblank

/-- Only what returns nothing is spelled `void`. -/
theorem typeText_eq_void_iff {t : TypeName} : typeText t = "void" ↔ t.isVoid = true := by
  unfold typeText TypeName.spelling TypeName.isVoid
  rcases t.token_cases with ⟨type, htoken⟩ | ⟨hunknown, htoken⟩
  · rw [htoken]
    cases type <;> decide
  · rw [htoken]
    show (if allBlank t.raw then "Object" else t.raw) = "void" ↔ false = true
    split
    · decide
    · refine ⟨fun hraw => ?_, fun h => by cases h⟩
      rw [hraw] at hunknown
      exact absurd hunknown (by decide)

theorem isVoid_eq_of_typeText_eq {t u : TypeName} (h : typeText t = typeText u) :
    t.isVoid = u.isVoid := by
  rw [Bool.eq_iff_iff, ← typeText_eq_void_iff, ← typeText_eq_void_iff, h]

theorem word_fieldModifier? {v : Visibility} : ∀ w ∈ (fieldModifier? v).toList, Word w := by
  unfold fieldModifier?
  cases v.access? with
  | none => decide
  | some access => cases access <;> decide

theorem word_methodModifier? {v : Visibility} : ∀ w ∈ (methodModifier? v).toList, Word w := by
  unfold methodModifier?
  cases v.access? with
  | none => decide
  | some access => cases access <;> decide

/-! ## Blocks depend on views alone -/

/-- A getter and a setter. -/
def accessors (p : Property) : List (List Step) := [getter p, setter p]

theorem field_congr : field.FactorsThrough fieldView := by
  intro p q h
  simp only [fieldView, FieldView.mk.injEq] at h
  obtain ⟨hmodifier, htype, hname⟩ := h
  rw [field, hmodifier, htype, hname, ← field]

theorem accessors_congr : accessors.FactorsThrough fieldView := by
  intro p q h
  simp only [fieldView, FieldView.mk.injEq] at h
  obtain ⟨-, htype, hname⟩ := h
  simp only [accessors, getter, setter, htype, hname]

theorem parameter_congr : parameter.FactorsThrough parameterView := by
  intro p q h
  simp only [parameterView, ParameterView.mk.injEq] at h
  rw [parameter, h.1, h.2, ← parameter]

theorem method_congr (o : Options) (hasParent : Bool) :
    (method o hasParent).FactorsThrough methodView := by
  intro f g h
  simp only [methodView, MethodView.mk.injEq] at h
  obtain ⟨hmodifier, htype, hname, hparameters⟩ := h
  have htexts := map_eq_of_factorsThrough parameter_congr hparameters
  rw [method, hmodifier, htype, hname, htexts, isVoid_eq_of_typeText_eq htype, ← method]

theorem members_eq (o : Options) (parent : Option String) (c : Class) :
    members o parent c = constructor o parent c ::
      ((c.properties.map accessors).flatten ++ c.methods.map (method o parent.isSome) ++
        parent.toList.map (toStringMethod · c)) := by
  rw [members, ← List.flatMap_def]
  rfl

/-- Classes with the same view have the same block. -/
theorem classBlock_congr (o : Options) {parent parent' : Option String} {c d : Class}
    (h : classView parent c = classView parent' d) : classBlock o parent c = classBlock o parent' d := by
  simp only [classView, ClassView.mk.injEq] at h
  obtain ⟨hname, rfl, hfields, hmethods⟩ := h
  have haccessors := map_eq_of_factorsThrough accessors_congr hfields
  have hstubs := map_eq_of_factorsThrough (method_congr o parent.isSome) hmethods
  have hmembers : members o parent c = members o parent d := by
    rw [members_eq, members_eq, haccessors, hstubs]
    simp only [constructor, toStringMethod, hname]
  have hheader : header parent c = header parent d := by
    rw [header, hname, ← header]
  have hlines : c.properties.flatMap field = d.properties.flatMap field := by
    rw [List.flatMap_def, map_eq_of_factorsThrough field_congr hfields, ← List.flatMap_def]
  rw [classBlock, classBlock, hheader, hlines, hmembers]

/-! ## Rows of a block -/

def fieldLine (p : Property) : String :=
  spacedModifier (fieldModifier? p.visibility) ++ typeText p.type ++ " " ++ p.name ++ ";"

theorem solid_members (o : Options) (parent : Option String) (c : Class) :
    ∀ b ∈ members o parent c, Solid b := by
  intro b hb
  have hline (text : String) : Solid [.line text] := by simp [Solid, Step.text?]
  simp only [members, List.mem_append, List.mem_cons, List.mem_flatMap, List.mem_map,
    Option.mem_toList] at hb
  rcases hb with ((rfl | ⟨p, -, hb⟩) | ⟨f, -, rfl⟩) | ⟨p, -, rfl⟩
  · exact (hline _).stepsIf.append (solid_braced (hline _).stepsIf)
  · rcases hb with rfl | rfl | hb
    · exact solid_braced (hline _)
    · exact solid_braced (hline _)
    · cases hb
  · exact solid_braced (((hline _).stepsIf.append (hline _)).append (hline _).stepsIf)
  · exact (hline _).append (solid_braced (hline _))

/-- The header, the fields, and the other members with a blank row before each. -/
theorem rowTexts_classBlock (o : Options) (parent : Option String) (c : Class) (m : Margin) :
    rowTexts m (classBlock o parent c) = (header parent c ++ " \x7b") ::
      (c.properties.map fieldLine ++
        ((if c.properties.isEmpty then [] else [""]) ++ textsOf (constructor o parent c) ++
          (siblingTexts (c.properties.map accessors).flatten ++
            (siblingTexts (c.methods.map (method o parent.isSome)) ++
              (siblingTexts (parent.toList.map (toStringMethod · c)) ++ ["\x7d"]))))) := by
  have hfields : c.properties.flatMap field = (c.properties.map fieldLine).map .line := by
    rw [List.map_map]
    exact (List.map_eq_flatMap ..).symm
  have hrows : rowTexts ⟨m.depth + 1, false⟩ (c.properties.flatMap field) =
      c.properties.map fieldLine := by
    rw [hfields, rowTexts_lines]
  have hafter : Margin.run ⟨m.depth + 1, false⟩ (c.properties.flatMap field) =
      ⟨m.depth + 1, !c.properties.isEmpty⟩ := by
    cases hc : c.properties with
    | nil => rfl
    | cons p more =>
        rw [hc] at hfields
        rw [hfields]
        exact settled_lines (forall_mem_map_line _) (by simp) _
  have hmembers : ∀ b ∈ members o parent c, Solid b ∧ Settled b := fun b hb =>
    ⟨solid_members o parent c b hb, settled_members o parent c b hb⟩
  rw [members_eq] at hmembers
  rw [classBlock, rowTexts_braced, rowTexts_append, hrows, hafter, members_eq,
    rowTexts_spaced_cons hmembers, siblingTexts_append, siblingTexts_append]
  cases c.properties.isEmpty <;> simp

end Java

/-! ## Rows of plain classes -/

theorem Text.Word.singleLine {w : String} (h : Word w) : SingleLine w := fun hmem =>
  absurd (h.2 _ hmem) (by decide)

theorem Text.Word.upright {w : String} (h : Word w) : Upright w := by
  refine ⟨h.singleLine, ?_⟩
  cases hchars : w.toList with
  | nil => exact absurd (by simpa using hchars) h.1
  | cons c cs =>
      have hc : isWordChar c = true := h.2 c (by rw [hchars]; exact List.mem_cons_self ..)
      have hne : c ≠ ' ' := by
        rintro rfl
        cases hc
      simpa using hne

namespace Java

theorem upright_spacedModifier {modifier : Option String} {type : String}
    (hmodifier : ∀ w ∈ modifier.toList, Word w) (htype : Word type) :
    Upright (spacedModifier modifier ++ type) := by
  cases modifier with
  | none =>
      rw [spacedModifier, Option.elim_none, String.empty_append]
      exact htype.upright
  | some w =>
      have hw : Word w := hmodifier w (by simp)
      simp +decide [spacedModifier, upright_append, hw.1, hw.upright, htype.singleLine]

theorem eachText_field {p : Property} (h : p.Plain) : EachText Upright (field p) := by
  have htype := word_typeText h.2
  refine eachText_line_cons.mpr ⟨?_, eachText_nil⟩
  simp +decide [upright_append, upright_spacedModifier word_fieldModifier? htype, htype.1,
    h.1.singleLine]

theorem eachText_constructor (o : Options) (parent : Option String) {c : Class} (h : Word c.name) :
    EachText Upright (constructor o parent c) := by
  have hcall : Upright (if o.docs then "super(); // Call parent class constructor" else "super();") := by
    cases o.docs <;> decide
  unfold constructor
  rw [eachText_append, eachText_braced]
  refine ⟨EachText.stepsIf fun _ => by simp +decide, ?_,
    EachText.stepsIf fun _ => eachText_line_cons.mpr ⟨hcall, eachText_nil⟩, by decide⟩
  simp +decide [upright_append, h.singleLine]

theorem eachText_accessors {p : Property} (h : p.Plain) :
    ∀ b ∈ accessors p, EachText Upright b := by
  have hname := h.1.singleLine
  have htype := (word_typeText h.2).singleLine
  intro b hb
  rcases List.mem_cons.mp hb with rfl | hb
  · unfold getter
    rw [eachText_braced, eachText_line_cons]
    refine ⟨?_, ⟨?_, eachText_nil⟩, by decide⟩
    · simp +decide [upright_append, hname.capitalize, htype]
    · simp +decide [upright_append, hname]
  · rw [List.mem_singleton.mp hb]
    unfold setter
    rw [eachText_braced, eachText_line_cons]
    refine ⟨?_, ⟨?_, eachText_nil⟩, by decide⟩
    · simp +decide [upright_append, hname, hname.capitalize, htype]
    · simp +decide [upright_append, hname]

theorem eachText_method (o : Options) (hasParent : Bool) {f : Method} (h : f.Plain) :
    EachText Upright (method o hasParent f) := by
  obtain ⟨hname, htype, hparameters⟩ := h
  have hlist : SingleLine (commaList (f.parameters.map parameter)) := by
    apply SingleLine.intercalate (by decide)
    rw [List.forall_mem_map]
    intro p hp
    obtain ⟨hpname, hptype⟩ := hparameters p hp
    simp +decide [parameter, (word_typeText hptype).singleLine, hpname.singleLine]
  unfold method
  rw [eachText_braced, eachText_append, eachText_append]
  refine ⟨?_, ⟨⟨EachText.stepsIf fun _ => by simp +decide, by simp +decide⟩,
    EachText.stepsIf fun _ => by simp +decide⟩, by decide⟩
  have htype := word_typeText htype
  simp +decide [upright_append, upright_spacedModifier word_methodModifier? htype, htype.1,
    hname.singleLine, hlist]

theorem eachText_toStringMethod {parent : String} {c : Class} (hp : Word parent) (hc : Word c.name) :
    EachText Upright (toStringMethod parent c) := by
  unfold toStringMethod
  rw [eachText_line_cons, eachText_braced, eachText_line_cons]
  refine ⟨by decide, by decide, ⟨?_, eachText_nil⟩, by decide⟩
  simp +decide [upright_append, hc.singleLine, hp.singleLine]

theorem eachText_classBlock (o : Options) {parent : Option String} {c : Class} (h : c.Plain)
    (hp : ∀ p ∈ parent.toList, Word p) : EachText Upright (classBlock o parent c) := by
  obtain ⟨hname, hproperties, hmethods⟩ := h
  unfold classBlock
  rw [eachText_braced, eachText_append, eachText_flatMap, eachText_spaced]
  refine ⟨?_, ⟨?_, ?_⟩, by decide⟩
  · have hextends : SingleLine (parent.elim "" (" extends " ++ ·)) := by
      cases parent with
      | none => decide
      | some p => exact singleLine_append.mpr ⟨by decide, (hp p (by simp)).singleLine⟩
    simp +decide [header, upright_append, hname.singleLine, hextends]
  · exact fun p hmem => eachText_field (hproperties p hmem)
  · intro b hb
    simp only [members_eq, List.mem_append, List.mem_cons, List.mem_flatten, List.mem_map] at hb
    rcases hb with rfl | (⟨-, ⟨p, hmem, rfl⟩, hb⟩ | ⟨f, hmem, rfl⟩) | ⟨p, hmem, rfl⟩
    · exact eachText_constructor o parent hname
    · exact eachText_accessors (hproperties p hmem) b hb
    · exact eachText_method o parent.isSome (hmethods f hmem)
    · exact eachText_toStringMethod (hp p hmem) hname

end Java

end UmlSkeleton

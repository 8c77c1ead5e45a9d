import UmlSkeleton.Proofs.Layout.Braces
import UmlSkeleton.Proofs.Model.Texts
import UmlSkeleton.Proofs.Text.Case
import UmlSkeleton.Proofs.Trailer

/-!
# Blocks in braces

In Java and in PHP every block stands in braces. What is written in it and around it is put together from
the texts of a model and from words of the target, and no such word has a framing character in it. So a
kind of framing character that the texts of a model do not have is written only where the layout puts it.

* `Java.inBraces_classBlock`, `Php.inBraces_classBlock` — the block of a class, with all its members.
* `Model.inBraces_trailer` — the trailer, which has no block, in any target.
* `Model.inBraces_layout` — a whole skeleton.
-/

namespace UmlSkeleton

open Text

variable {bad : Char → Bool} (hbad : ∀ c, bad c = true → isFraming c = true)
include hbad

theorem without_commaList {texts : List String} (h : ∀ t ∈ texts, Without bad t) :
    Without bad (commaList texts) :=
  Without.intercalate (Without.of_isFraming hbad (by decide)) h

/-! ## Java -/

namespace Java

theorem without_typeText {t : TypeName} (h : Without bad t.raw) : Without bad (typeText t) := by
  unfold typeText TypeName.spelling
  rcases t.token_cases with ⟨type, htoken⟩ | ⟨-, htoken⟩
  · rw [htoken]
    cases type <;> exact Without.of_isFraming hbad (by decide)
  · rw [htoken]
    show Without bad (if allBlank t.raw then "Object" else t.raw)
    split
    · exact Without.of_isFraming hbad (by decide)
    · exact h

theorem without_fieldModifier (v : Visibility) : Without bad (spacedModifier (fieldModifier? v)) := by
  unfold fieldModifier?
  cases v.access? with
  | none => exact Without.of_isFraming hbad (by decide)
  | some access => cases access <;> exact Without.of_isFraming hbad (by decide)

theorem without_methodModifier (v : Visibility) : Without bad (spacedModifier (methodModifier? v)) := by
  unfold methodModifier?
  cases v.access? with
  | none => exact Without.of_isFraming hbad (by decide)
  | some access => cases access <;> exact Without.of_isFraming hbad (by decide)

theorem inBraces_constructor (o : Options) (parent : Option String) {c : Class}
    (h : Without bad c.name) : InBraces (Without bad) (constructor o parent c) := by
  have hcall : Without bad (if o.docs then "super(); // Call parent class constructor" else "super();") := by
    cases o.docs <;> exact Without.of_isFraming hbad (by decide)
  unfold constructor
  rw [inBraces_append]
  refine ⟨InBraces.stepsIf ?_, inBraces_braced ?_ (InBraces.stepsIf ?_)⟩
  · simp (disch := decide) [Without.of_isFraming hbad]
  · simp (disch := decide) [Without.of_isFraming hbad, h]
  · simp [hcall]

section
variable {p : Property} (hname : Without bad p.name) (htype : Without bad p.type.raw)
include hname htype

theorem inBraces_field : InBraces (Without bad) (field p) := by
  have hmodifier := without_fieldModifier hbad p.visibility
  have htype := without_typeText hbad htype
  unfold field
  simp (disch := decide) [Without.of_isFraming hbad, hmodifier, htype, hname]

theorem inBraces_getter : InBraces (Without bad) (getter p) := by
  have htype := without_typeText hbad htype
  have hcapital := Without.capitalize hbad hname
  refine inBraces_braced ?_ ?_
  · simp (disch := decide) [Without.of_isFraming hbad, htype, hcapital]
  · simp (disch := decide) [Without.of_isFraming hbad, hname]

theorem inBraces_setter : InBraces (Without bad) (setter p) := by
  have htype := without_typeText hbad htype
  have hcapital := Without.capitalize hbad hname
  refine inBraces_braced ?_ ?_
  · simp (disch := decide) [Without.of_isFraming hbad, htype, hcapital, hname]
  · simp (disch := decide) [Without.of_isFraming hbad, hname]

end

theorem inBraces_method (o : Options) (hasParent : Bool) {f : Method} (hname : Without bad f.name)
    (htype : Without bad f.type.raw)
    (hparameters : ∀ a ∈ f.parameters, Without bad a.name ∧ Without bad a.type.raw) :
    InBraces (Without bad) (method o hasParent f) := by
  have hmodifier := without_methodModifier hbad f.visibility
  have htype := without_typeText hbad htype
  have hlist : Without bad (commaList (f.parameters.map parameter)) := by
    refine without_commaList hbad (List.forall_mem_map.mpr fun a ha => ?_)
    have hparameter := without_typeText hbad (hparameters a ha).2
    unfold parameter
    simp (disch := decide) [Without.of_isFraming hbad, hparameter, (hparameters a ha).1]
  refine inBraces_braced ?_ ?_
  · simp (disch := decide) [Without.of_isFraming hbad, hmodifier, htype, hname, hlist]
  · rw [inBraces_append, inBraces_append]
    refine ⟨⟨InBraces.stepsIf ?_, ?_⟩, InBraces.stepsIf ?_⟩
    · simp (disch := decide) [Without.of_isFraming hbad]
    · simp (disch := decide) [Without.of_isFraming hbad]
    · simp (disch := decide) [Without.of_isFraming hbad]

theorem inBraces_toStringMethod {parent : String} {c : Class} (hparent : Without bad parent)
    (hname : Without bad c.name) : InBraces (Without bad) (toStringMethod parent c) := by
  unfold toStringMethod
  rw [inBraces_line_cons]
  refine ⟨Without.of_isFraming hbad (by decide), inBraces_braced ?_ ?_⟩
  · exact Without.of_isFraming hbad (by decide)
  · simp (disch := decide) [Without.of_isFraming hbad, hname, hparent]

theorem inBraces_classBlock (o : Options) {parent : Option String} {c : Class}
    (hc : ∀ t ∈ c.written, Without bad t) (hparent : ∀ p ∈ parent, Without bad p) :
    InBraces (Without bad) (classBlock o parent c) := by
  obtain ⟨hnames, htypes⟩ := Class.forall_written_iff.mp hc
  obtain ⟨hname, hproperties, hmethods⟩ := Class.forall_names_iff.mp hnames
  obtain ⟨hfields, hstubs⟩ := Class.forall_typeTexts_iff.mp htypes
  refine inBraces_braced ?_ ?_
  · unfold header
    cases parent with
    | none => simp (disch := decide) [Without.of_isFraming hbad, hname]
    | some p => simp (disch := decide) [Without.of_isFraming hbad, hname, hparent p rfl]
  · rw [inBraces_append, inBraces_flatMap, inBraces_spaced]
    refine ⟨fun p hp => inBraces_field hbad (hproperties p hp) (hfields p hp), fun b hb => ?_⟩
    simp only [members, List.mem_append, List.mem_cons, List.mem_flatMap, List.mem_map,
      Option.mem_toList] at hb
    rcases hb with ((rfl | ⟨p, hp, hb⟩) | ⟨f, hf, rfl⟩) | ⟨p, hp, rfl⟩
    · exact inBraces_constructor hbad o parent hname
    · rcases hb with rfl | rfl | hb
      · exact inBraces_getter hbad (hproperties p hp) (hfields p hp)
      · exact inBraces_setter hbad (hproperties p hp) (hfields p hp)
      · cases hb
    · exact inBraces_method hbad o parent.isSome (hmethods f hf).1 (hstubs f hf).1
        fun a ha => ⟨(hmethods f hf).2 a ha, (hstubs f hf).2 a ha⟩
    · exact inBraces_toStringMethod hbad (hparent p hp) hname

end Java

/-! ## PHP -/

namespace Php

theorem without_typeText (t : TypeName) : Without bad (typeText t) := by
  unfold typeText TypeName.spelling
  cases t.token with
  | custom text => exact Without.of_isFraming hbad (by decide : Without isFraming "mixed")
  | known type => cases type <;> exact Without.of_isFraming hbad (by decide)

theorem without_valueTypeText (t : TypeName) : Without bad (valueTypeText t) := by
  unfold valueTypeText valueType
  split
  · exact Without.of_isFraming hbad (by decide)
  · exact without_typeText hbad t

theorem without_nullable (t : TypeName) : Without bad (nullable (typeText t)) := by
  have htype : Without bad (valueType (typeText t)) := without_valueTypeText hbad t
  unfold nullable
  split
  · exact Without.of_isFraming hbad (by decide)
  · simp (disch := decide) [Without.of_isFraming hbad, htype]

theorem without_propertyKeyword (v : Visibility) : Without bad (propertyKeyword v) := by
  unfold propertyKeyword
  cases v.access? with
  | none => exact Without.of_isFraming hbad (by decide)
  | some access => cases access <;> exact Without.of_isFraming hbad (by decide)

theorem without_methodKeyword (v : Visibility) : Without bad (methodKeyword v) := by
  unfold methodKeyword
  cases v.access? with
  | none => exact Without.of_isFraming hbad (by decide)
  | some access => cases access <;> exact Without.of_isFraming hbad (by decide)

theorem without_paramDoc (t : TypeName) {name : String} (h : Without bad name) :
    Without bad (paramDoc t name) := by
  unfold paramDoc
  simp (disch := decide) [Without.of_isFraming hbad, without_valueTypeText hbad t, h]

theorem inBraces_docBlock (o : Options) {texts : List String} (h : ∀ t ∈ texts, Without bad t) :
    InBraces (Without bad) (docBlock o texts) := by
  refine InBraces.stepsIf ?_
  rw [List.cons_append, inBraces_line_cons, inBraces_append, inBraces_map_line]
  refine ⟨Without.of_isFraming hbad (by decide), fun t ht => ?_, ?_⟩
  · simp (disch := decide) [Without.of_isFraming hbad, h t ht]
  · simp (disch := decide) [Without.of_isFraming hbad]

theorem inBraces_constructor (o : Options) (parent : Option String) {c : Class}
    (h : ∀ p ∈ c.properties, Without bad p.name) :
    InBraces (Without bad) (constructor o parent c) := by
  have hlist : Without bad (commaList (c.properties.map fun p =>
      nullable (typeText p.type) ++ " $" ++ p.name ++ " = null")) := by
    refine without_commaList hbad (List.forall_mem_map.mpr fun p hp => ?_)
    simp (disch := decide) [Without.of_isFraming hbad, without_nullable hbad p.type, h p hp]
  unfold constructor
  rw [inBraces_append]
  refine ⟨inBraces_docBlock hbad o ?_, inBraces_braced ?_ ?_⟩
  · refine List.forall_mem_cons.mpr ⟨Without.of_isFraming hbad (by decide), ?_⟩
    exact List.forall_mem_map.mpr fun p hp => without_paramDoc hbad p.type (h p hp)
  · simp (disch := decide) [Without.of_isFraming hbad, hlist]
  · rw [inBraces_append]
    refine ⟨InBraces.stepsIf ?_, inBraces_map_line.mpr fun p hp => ?_⟩
    · simp (disch := decide) [Without.of_isFraming hbad]
    · simp (disch := decide) [Without.of_isFraming hbad, h p hp]

section
variable (o : Options) {p : Property} (h : Without bad p.name)
include h

theorem inBraces_property : InBraces (Without bad) (property o p) := by
  have hkeyword := without_propertyKeyword hbad p.visibility
  have htype := without_valueTypeText hbad p.type
  unfold property
  rw [inBraces_append]
  refine ⟨InBraces.stepsIf ?_, ?_⟩
  · simp (disch := decide) [Without.of_isFraming hbad, htype]
  · simp (disch := decide) [Without.of_isFraming hbad, hkeyword, h]

theorem inBraces_getter : InBraces (Without bad) (getter o p) := by
  have htype := without_valueTypeText hbad p.type
  have hcapital := Without.capitalize hbad h
  unfold getter
  rw [inBraces_append]
  refine ⟨inBraces_docBlock hbad o ?_, inBraces_braced ?_ ?_⟩
  · simp (disch := decide) [Without.of_isFraming hbad, h, htype]
  · simp (disch := decide) [Without.of_isFraming hbad, hcapital, htype]
  · simp (disch := decide) [Without.of_isFraming hbad, h]

theorem inBraces_setter : InBraces (Without bad) (setter o p) := by
  have htype := without_valueTypeText hbad p.type
  have hcapital := Without.capitalize hbad h
  have hdoc := without_paramDoc hbad p.type h
  unfold setter
  rw [inBraces_append]
  refine ⟨inBraces_docBlock hbad o ?_, inBraces_braced ?_ ?_⟩
  · simp (disch := decide) [Without.of_isFraming hbad, h, hdoc]
  · simp (disch := decide) [Without.of_isFraming hbad, hcapital, htype, h]
  · simp (disch := decide) [assignment, Without.of_isFraming hbad, h]

end

theorem inBraces_method (o : Options) {f : Method} (hname : Without bad f.name)
    (hparameters : ∀ a ∈ f.parameters, Without bad a.name) :
    InBraces (Without bad) (method o f) := by
  have hkeyword := without_methodKeyword hbad f.visibility
  have htype := without_typeText hbad f.type
  have hlist : Without bad (commaList (f.parameters.map fun p =>
      valueTypeText p.type ++ " $" ++ p.name)) := by
    refine without_commaList hbad (List.forall_mem_map.mpr fun a ha => ?_)
    simp (disch := decide) [Without.of_isFraming hbad, without_valueTypeText hbad a.type,
      hparameters a ha]
  unfold method
  rw [inBraces_append]
  refine ⟨inBraces_docBlock hbad o ?_, inBraces_braced ?_ ?_⟩
  · rw [List.cons_append, List.forall_mem_cons, List.forall_mem_append, List.forall_mem_map]
    refine ⟨?_, fun a ha => without_paramDoc hbad a.type (hparameters a ha), ?_⟩
    · simp (disch := decide) [Without.of_isFraming hbad, hname]
    · simp (disch := decide) [Without.of_isFraming hbad, htype]
  · simp (disch := decide) [Without.of_isFraming hbad, hkeyword, hname, hlist, htype]
  · rw [inBraces_line_cons]
    refine ⟨Without.of_isFraming hbad (by decide), InBraces.stepsIf ?_⟩
    simp (disch := decide) [Without.of_isFraming hbad]

theorem inBraces_classBlock (o : Options) {parent : Option String} {c : Class}
    (hc : ∀ t ∈ c.names, Without bad t) (hparent : ∀ p ∈ parent, Without bad p) :
    InBraces (Without bad) (classBlock o parent c) := by
  obtain ⟨hname, hproperties, hmethods⟩ := Class.forall_names_iff.mp hc
  unfold classBlock
  rw [inBraces_append]
  refine ⟨inBraces_docBlock hbad o ?_, inBraces_braced ?_ ?_⟩
  · cases parent with
    | none => simp (disch := decide) [Without.of_isFraming hbad, hname]
    | some p => simp (disch := decide) [Without.of_isFraming hbad, hname, hparent p rfl]
  · unfold header
    cases parent with
    | none => simp (disch := decide) [Without.of_isFraming hbad, hname]
    | some p => simp (disch := decide) [Without.of_isFraming hbad, hname, hparent p rfl]
  · rw [inBraces_append, inBraces_flatMap, inBraces_spaced]
    refine ⟨fun p hp => inBraces_property hbad o (hproperties p hp), fun b hb => ?_⟩
    simp only [members, accessors, List.mem_append, List.mem_cons, List.mem_map] at hb
    rcases hb with (rfl | hb) | ⟨f, hf, rfl⟩
    · exact inBraces_constructor hbad o parent hproperties
    · split at hb
      · simp only [List.mem_flatMap, List.mem_cons] at hb
        obtain ⟨p, hp, hb⟩ := hb
        rcases hb with rfl | rfl | hb
        · exact inBraces_getter hbad o (hproperties p hp)
        · exact inBraces_setter hbad o (hproperties p hp)
        · cases hb
      · cases hb
    · exact inBraces_method hbad o (hmethods f hf).1 (hmethods f hf).2

end Php

/-! ## Skeletons -/

theorem Relationship.without_note {r : Relationship} (h : ∀ text ∈ r.multiplicity, Without bad text) :
    Without bad r.note := by
  unfold note
  cases hmultiplicity : r.multiplicity with
  | none => simp [Without]
  | some text =>
      rw [hmultiplicity] at h
      show Without bad (if text = "" then "" else " (Multiplicity: " ++ text ++ ")")
      split
      · simp [Without]
      · simp (disch := decide) [Without.of_isFraming hbad, h text rfl]

namespace Model

variable {m : Model} (h : ∀ t ∈ m.written, Without bad t)
include h

theorem inBraces_trailer (target : Target) : InBraces (Without bad) (m.trailer target) := by
  have hname := forall_mem_name h
  have hcomment : Without bad target.comment := by
    cases target <;> exact Without.of_isFraming hbad (by decide)
  show InBraces (Without bad) ((m.trailerLines target).map fun text => .line text)
  rw [inBraces_map_line, trailerLines, List.forall_mem_cons, List.forall_mem_map]
  refine ⟨?_, ?_⟩
  · simp (disch := decide) [Without.of_isFraming hbad, hcomment]
  · rintro ⟨r, source, other⟩ he
    obtain ⟨hsource, hother⟩ := mem_classes_of_mem_resolved he
    obtain ⟨hkind, hmultiplicity⟩ := (forall_written_iff.mp h).2 r (mem_resolved_iff.mp he).1
    show Without bad (target.comment ++ " " ++ r.describe source other)
    rw [Relationship.describe_eq_note]
    simp (disch := decide) [Without.of_isFraming hbad, hcomment, hkind, hname source hsource,
      hname other hother, Relationship.without_note hbad hmultiplicity]

/-- In Java and PHP all of a skeleton is in braces. -/
theorem inBraces_layout (o : Options) {target : Target} (htarget : target ≠ .python) :
    InBraces (Without bad) (m.layout o target) := by
  have hclasses := (forall_written_iff.mp h).1
  have hparent := forall_mem_parent? (forall_mem_name h)
  have htrailer := inBraces_trailer hbad h target
  unfold layout
  rw [inBraces_append, inBraces_append, inBraces_flatMap]
  cases target with
  | java =>
      refine ⟨⟨inBraces_nil, fun c hc => ?_⟩, InBraces.stepsIf (inBraces_gap_cons.mpr htrailer)⟩
      exact inBraces_gap_cons.mpr (Java.inBraces_classBlock hbad o (hclasses c hc) (hparent c.name))
  | php =>
      have hprologue : InBraces (Without bad) [.line "<?php"] := by
        simp (disch := decide) [Without.of_isFraming hbad]
      refine ⟨⟨hprologue, fun c hc => ?_⟩, InBraces.stepsIf (inBraces_gap_cons.mpr htrailer)⟩
      have hnames := (Class.forall_written_iff.mp (hclasses c hc)).1
      exact inBraces_gap_cons.mpr (Php.inBraces_classBlock hbad o hnames (hparent c.name))
  | python => exact absurd rfl htarget

end Model

end UmlSkeleton

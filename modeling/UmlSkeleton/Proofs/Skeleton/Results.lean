import UmlSkeleton.Proofs.Java.View
import UmlSkeleton.Proofs.Skeleton.Lines
import UmlSkeleton.Proofs.Skeleton.Source

/-!
# Functions that return nothing

Each target has a text for the type of a function that returns nothing: `void`, or `None` in Python. As a
type it is meant for results only. This module says where it stands in a skeleton, of all the types that are
written (`Source.Class.uses`), and that a stub pretends to return something exactly if its header says so.

* `Model.voidOnlyReturned_iff` — PHP writes `void` nowhere but for the results of methods without a value.
  Java writes it wherever a model has it, so also for fields, accessors and parameters.
* `Model.placeholder_iff` — header and body of a stub agree, in every target.
-/

namespace UmlSkeleton

open Source (Remark)

/-! ## The type of no value -/

/-- What a target writes as the type of a function that returns nothing. -/
def Target.noValue : Target → String
  | .java => "void"
  | .php => "void"
  | .python => "None"

/-- Only what returns nothing is spelled so, whatever a custom type is called. -/
theorem TypeName.spelling_eq_noValue_iff (target : Target) (t : TypeName) :
    t.spelling target = target.noValue ↔ t.isVoid = true := by
  cases target with
  | java => exact Java.typeText_eq_void_iff
  | php =>
      unfold TypeName.spelling TypeName.isVoid
      cases t.token with
      | known type => cases type <;> decide
      | custom text => simp [TypeToken.spelling, Target.noValue, TypeToken.isVoid]
  | python =>
      unfold TypeName.spelling TypeName.isVoid
      cases t.token with
      | known type => cases type <;> decide
      | custom text => simp [TypeToken.spelling, Target.noValue, TypeToken.isVoid]

/-! ## Types and their places -/

/-- What a type is the type of. -/
inductive Place where
  | field
  | parameter (role : Role)
  | result (role : Role)

/-- A type that is written, in a declaration or in an annotation. -/
structure Use where
  place : Place
  type : String

namespace Source

def Remark.uses (role : Role) : Remark → List Use
  | .words _ => []
  | .param type _ => [⟨.parameter role, type⟩]
  | .returns type => [⟨.result role, type⟩]

def Field.uses (f : Field) : List Use := (f.annotation.toList ++ f.type.toList).map (⟨.field, ·⟩)

def Function.uses (f : Function) : List Use :=
  f.preface.flatMap (Remark.uses f.role) ++ f.parameters.map (⟨.parameter f.role, ·.type⟩) ++
    f.result.toList.map (⟨.result f.role, ·⟩)

/-- All the types that are written in the block of a class. -/
def Class.uses (k : Class) : List Use :=
  k.fields.flatMap Field.uses ++ k.functions.flatMap Function.uses

theorem Function.forall_uses_iff {f : Function} {p : Use → Prop} :
    (∀ u ∈ f.uses, p u) ↔ (∀ r ∈ f.preface, ∀ u ∈ r.uses f.role, p u) ∧
      (∀ q ∈ f.parameters, p ⟨.parameter f.role, q.type⟩) ∧ ∀ t ∈ f.result.toList, p ⟨.result f.role, t⟩ := by
  rw [uses, List.forall_mem_append, List.forall_mem_append, List.forall_mem_flatMap, List.forall_mem_map,
    List.forall_mem_map, and_assoc]

theorem Class.forall_uses_iff {k : Class} {p : Use → Prop} :
    (∀ u ∈ k.uses, p u) ↔
      (∀ f ∈ k.fields, ∀ u ∈ f.uses, p u) ∧ ∀ f ∈ k.functions, ∀ u ∈ f.uses, p u := by
  rw [uses, List.forall_mem_append, List.forall_mem_flatMap, List.forall_mem_flatMap]

end Source

/-- The type says that there is no value, in PHP also with the mark of what may be null. -/
def Target.SaysVoid (target : Target) (type : String) : Prop :=
  type = "void" ∨ target = .php ∧ type = "?void"

instance (target : Target) (type : String) : Decidable (target.SaysVoid type) :=
  inferInstanceAs (Decidable (type = "void" ∨ target = .php ∧ type = "?void"))

/-- Here a function returns nothing: a stub of a method without a value, or a setter in Java. -/
def Place.IsVoid (target : Target) : Place → Prop
  | .result (.stub f) => f.type.isVoid = true
  | .result .setter => target = .java
  | _ => False

section
variable {target : Target} {role : Role}

theorem Place.not_isVoid_field : ¬ Place.field.IsVoid target := id

theorem Place.not_isVoid_parameter : ¬ (Place.parameter role).IsVoid target := id

theorem Place.not_isVoid_getter : ¬ (Place.result .getter).IsVoid target := id

end

/-- The type is one of no value exactly if nothing is returned at its place. -/
def Use.Fits (target : Target) (u : Use) : Prop := target.SaysVoid u.type ↔ u.place.IsVoid target

theorem Use.fits_iff {target : Target} {place : Place} {type : String} :
    (⟨place, type⟩ : Use).Fits target ↔ (target.SaysVoid type ↔ place.IsVoid target) := Iff.rfl

/-- Of all the types that are written, those of no value are the results of functions that return
nothing. -/
def VoidOnlyReturned (target : Target) (ks : List Source.Class) : Prop :=
  ∀ k ∈ ks, ∀ u ∈ k.uses, u.Fits target

/-! ## PHP -/

namespace Php

-- A type text is never read here, only compared.
attribute [local irreducible] TypeToken.ofText

theorem saysVoid_typeText_iff (t : TypeName) : Target.php.SaysVoid (typeText t) ↔ t.isVoid = true := by
  have hvoid : typeText t = "void" ↔ t.isVoid = true := t.spelling_eq_noValue_iff .php
  have hmark : ∀ word ∈ phpTypes, word ≠ "?void" := by decide
  rw [Target.SaysVoid, hvoid]
  exact or_iff_left fun h => hmark _ t.spelling_php_mem h.2

/-- Where a value is meant, no type says that there is none. -/
theorem not_saysVoid_valueTypeText (t : TypeName) : ¬ Target.php.SaysVoid (valueTypeText t) := by
  have hwords : ∀ word ∈ phpTypes, ¬ Target.php.SaysVoid (valueType word) := by decide
  exact hwords _ t.spelling_php_mem

theorem not_saysVoid_nullable (t : TypeName) : ¬ Target.php.SaysVoid (nullable (typeText t)) := by
  have hwords : ∀ word ∈ phpTypes, ¬ Target.php.SaysVoid (nullable word) := by decide
  exact hwords _ t.spelling_php_mem

/-- Documentation names no other types than its lines do. -/
theorem forall_uses_docRemarks {o : Options} {remarks : List Remark} {role : Role} {p : Use → Prop}
    (h : ∀ r ∈ remarks, ∀ u ∈ r.uses role, p u) : ∀ r ∈ docRemarks o remarks, ∀ u ∈ r.uses role, p u := by
  have hwords (text : String) : ∀ u ∈ (Remark.words text).uses role, p u := by
    intro u hu
    cases hu
  unfold docRemarks
  split
  · rw [List.cons_append, List.forall_mem_cons, List.forall_mem_append, List.forall_mem_singleton]
    exact ⟨hwords _, h, hwords _⟩
  · intro r hr
    cases hr

theorem forall_uses_docLine {text : String} {role : Role} {p : Use → Prop} :
    ∀ u ∈ (docLine text).uses role, p u := by
  intro u hu
  cases hu

/-- At a place where no function returns nothing, the type of a value fits. -/
theorem fits_valueTypeText {place : Place} (hplace : ¬ place.IsVoid .php) (t : TypeName) :
    (⟨place, valueTypeText t⟩ : Use).Fits .php := by
  rw [Use.fits_iff]
  exact iff_of_false (not_saysVoid_valueTypeText t) hplace

theorem fits_param (role : Role) (t : TypeName) (name : String) :
    ∀ u ∈ (Remark.param (valueTypeText t) name).uses role, u.Fits .php := by
  rw [Remark.uses, List.forall_mem_singleton]
  exact fits_valueTypeText Place.not_isVoid_parameter t

theorem fits_propertySource (o : Options) (p : Property) : ∀ u ∈ (propertySource o p).uses, u.Fits .php := by
  have hfield := fits_valueTypeText Place.not_isVoid_field p.type
  rw [Source.Field.uses, propertySource, List.forall_mem_map]
  split
  · rwa [Option.toList_some, Option.toList_none, List.append_nil, List.forall_mem_singleton]
  · intro t ht
    cases ht

theorem fits_constructorSource (o : Options) (parent : Option String) (c : Class) :
    ∀ u ∈ (constructorSource o parent c).uses, u.Fits .php := by
  rw [Source.Function.forall_uses_iff]
  refine ⟨forall_uses_docRemarks ?_, ?_, ?_⟩
  · rw [List.forall_mem_cons, List.forall_mem_map]
    exact ⟨forall_uses_docLine, fun p _ => fits_param _ p.type p.name⟩
  · rw [constructorSource, List.forall_mem_map]
    intro p _
    rw [Use.fits_iff]
    exact iff_of_false (not_saysVoid_nullable p.type) Place.not_isVoid_parameter
  · intro t ht
    cases ht

theorem fits_getterSource (o : Options) (p : Property) : ∀ u ∈ (getterSource o p).uses, u.Fits .php := by
  have hresult := fits_valueTypeText Place.not_isVoid_getter p.type
  rw [Source.Function.forall_uses_iff]
  refine ⟨forall_uses_docRemarks ?_, ?_, ?_⟩
  · rw [List.forall_mem_cons, List.forall_mem_singleton, Remark.uses, List.forall_mem_singleton]
    exact ⟨forall_uses_docLine, hresult⟩
  · intro q hq
    cases hq
  · rwa [getterSource, Option.toList_some, List.forall_mem_singleton]

theorem fits_setterSource (o : Options) (p : Property) : ∀ u ∈ (setterSource o p).uses, u.Fits .php := by
  -- A setter returns the object itself.
  have hself : (⟨.result .setter, "self"⟩ : Use).Fits .php := by
    rw [Use.fits_iff]
    apply iff_of_false
    · simp [Target.SaysVoid]
    · simp [Place.IsVoid]
  have hparameter : (⟨.parameter .setter, valueTypeText p.type⟩ : Use).Fits .php :=
    fits_valueTypeText Place.not_isVoid_parameter p.type
  rw [Source.Function.forall_uses_iff]
  refine ⟨forall_uses_docRemarks ?_, ?_, ?_⟩
  · rw [List.forall_mem_cons, List.forall_mem_cons, List.forall_mem_singleton, Remark.uses, Remark.uses,
      List.forall_mem_singleton, List.forall_mem_singleton]
    exact ⟨forall_uses_docLine, hparameter, hself⟩
  · rwa [setterSource, List.forall_mem_singleton]
  · rwa [setterSource, Option.toList_some, List.forall_mem_singleton]

theorem fits_methodSource (o : Options) (f : Method) : ∀ u ∈ (methodSource o f).uses, u.Fits .php := by
  have hresult : (⟨.result (.stub f), typeText f.type⟩ : Use).Fits .php := by
    rw [Use.fits_iff]
    exact saysVoid_typeText_iff f.type
  rw [Source.Function.forall_uses_iff]
  refine ⟨forall_uses_docRemarks ?_, ?_, ?_⟩
  · rw [List.forall_mem_append, List.forall_mem_cons, List.forall_mem_map, List.forall_mem_singleton]
    refine ⟨⟨forall_uses_docLine, fun p _ => fits_param _ p.type p.name⟩, ?_⟩
    rwa [Remark.uses, List.forall_mem_singleton]
  · rw [methodSource, List.forall_mem_map]
    intro p _
    exact fits_valueTypeText Place.not_isVoid_parameter p.type
  · rwa [methodSource, Option.toList_some, List.forall_mem_singleton]

theorem fits_classSource (o : Options) (parent : Option String) (c : Class) :
    ∀ u ∈ (classSource o parent c).uses, u.Fits .php := by
  rw [Source.Class.forall_uses_iff]
  constructor
  · intro f hf
    obtain ⟨p, -, rfl⟩ := List.mem_map.mp hf
    exact fits_propertySource o p
  · rw [classSource, List.forall_mem_append, List.forall_mem_cons, List.forall_mem_map]
    refine ⟨⟨fits_constructorSource o parent c, ?_⟩, fun f _ => fits_methodSource o f⟩
    split
    · rw [Source.forall_mem_accessors_iff]
      exact fun p _ => ⟨fits_getterSource o p, fits_setterSource o p⟩
    · exact List.forall_mem_nil _

end Php

/-! ## Java -/

/-- The types of the properties of a class and of the parameters of its methods. -/
def Class.valueTypes (c : Class) : List TypeName :=
  c.properties.map (·.type) ++ c.methods.flatMap fun f => f.parameters.map (·.type)

namespace Java

attribute [local irreducible] TypeToken.ofText

theorem saysVoid_iff {type : String} : Target.java.SaysVoid type ↔ type = "void" := by
  simp [Target.SaysVoid]

/-- At any place that is no result of a stub, a type fits if it is the type of a value. -/
theorem fits_typeText_iff {place : Place} (hplace : ¬ place.IsVoid .java) (t : TypeName) :
    (⟨place, typeText t⟩ : Use).Fits .java ↔ t.isVoid = false := by
  rw [Use.Fits, saysVoid_iff, typeText_eq_void_iff, iff_false_right hplace, Bool.not_eq_true]

theorem fits_fieldSource_iff (p : Property) :
    (∀ u ∈ (fieldSource p).uses, u.Fits .java) ↔ p.type.isVoid = false := by
  have huses : (fieldSource p).uses = [⟨.field, typeText p.type⟩] := rfl
  rw [huses, List.forall_mem_singleton]
  exact fits_typeText_iff Place.not_isVoid_field p.type

theorem fits_constructorSource (o : Options) (parent : Option String) (c : Class) :
    ∀ u ∈ (constructorSource o parent c).uses, u.Fits .java := by
  intro u hu
  unfold constructorSource at hu
  cases hdocs : o.docs with
  | true => simp [Source.Function.uses, Remark.uses, hdocs] at hu
  | false => simp [Source.Function.uses, hdocs] at hu

theorem fits_getterSource_iff (p : Property) :
    (∀ u ∈ (getterSource p).uses, u.Fits .java) ↔ p.type.isVoid = false := by
  have huses : (getterSource p).uses = [⟨.result .getter, typeText p.type⟩] := rfl
  rw [huses, List.forall_mem_singleton]
  exact fits_typeText_iff Place.not_isVoid_getter p.type

theorem fits_setterSource_iff (p : Property) :
    (∀ u ∈ (setterSource p).uses, u.Fits .java) ↔ p.type.isVoid = false := by
  have huses : (setterSource p).uses = [⟨.parameter .setter, typeText p.type⟩, ⟨.result .setter, "void"⟩] := rfl
  have hresult : (⟨.result .setter, "void"⟩ : Use).Fits .java := by
    rw [Use.fits_iff]
    exact iff_of_true (.inl rfl) rfl
  rw [huses, List.forall_mem_cons, List.forall_mem_singleton, and_iff_left hresult]
  exact fits_typeText_iff Place.not_isVoid_parameter p.type

theorem fits_methodSource_iff (o : Options) (hasParent : Bool) (f : Method) :
    (∀ u ∈ (methodSource o hasParent f).uses, u.Fits .java) ↔ ∀ p ∈ f.parameters, p.type.isVoid = false := by
  have huses : (methodSource o hasParent f).uses =
      (f.parameters.map fun p => (⟨.parameter (.stub f), typeText p.type⟩ : Use)) ++
        [⟨.result (.stub f), typeText f.type⟩] := by
    simp [Source.Function.uses, methodSource]
  have hresult : (⟨.result (.stub f), typeText f.type⟩ : Use).Fits .java := by
    rw [Use.fits_iff, saysVoid_iff]
    exact typeText_eq_void_iff
  rw [huses, List.forall_mem_append, List.forall_mem_singleton, and_iff_left hresult, List.forall_mem_map]
  exact forall₂_congr fun p _ => fits_typeText_iff Place.not_isVoid_parameter p.type

theorem fits_toStringSource (parent : String) (c : Class) :
    ∀ u ∈ (toStringSource parent c).uses, u.Fits .java := by
  have huses : (toStringSource parent c).uses = [⟨.result .display, "String"⟩] := rfl
  rw [huses, List.forall_mem_singleton, Use.fits_iff]
  apply iff_of_false
  · simp [Target.SaysVoid]
  · simp [Place.IsVoid]

theorem fits_classSource_iff (o : Options) (parent : Option String) (c : Class) :
    (∀ u ∈ (classSource o parent c).uses, u.Fits .java) ↔ ∀ t ∈ c.valueTypes, t.isVoid = false := by
  have hfields : (∀ f ∈ (classSource o parent c).fields, ∀ u ∈ f.uses, u.Fits .java) ↔
      ∀ p ∈ c.properties, p.type.isVoid = false := by
    rw [classSource, List.forall_mem_map]
    exact forall₂_congr fun p _ => fits_fieldSource_iff p
  have haccessors : (∀ f ∈ c.properties.flatMap fun p => [getterSource p, setterSource p],
      ∀ u ∈ f.uses, u.Fits .java) ↔ ∀ p ∈ c.properties, p.type.isVoid = false := by
    rw [Source.forall_mem_accessors_iff]
    refine forall₂_congr fun p _ => ?_
    rw [fits_getterSource_iff, fits_setterSource_iff, and_self]
  have hstubs : (∀ f ∈ c.methods.map (methodSource o parent.isSome), ∀ u ∈ f.uses, u.Fits .java) ↔
      ∀ f ∈ c.methods, ∀ p ∈ f.parameters, p.type.isVoid = false := by
    rw [List.forall_mem_map]
    exact forall₂_congr fun f _ => fits_methodSource_iff o parent.isSome f
  have hdisplay : ∀ f ∈ parent.toList.map (toStringSource · c), ∀ u ∈ f.uses, u.Fits .java :=
    List.forall_mem_map.mpr fun p _ => fits_toStringSource p c
  have hfunctions : (∀ f ∈ (classSource o parent c).functions, ∀ u ∈ f.uses, u.Fits .java) ↔
      (∀ p ∈ c.properties, p.type.isVoid = false) ∧
        ∀ f ∈ c.methods, ∀ p ∈ f.parameters, p.type.isVoid = false := by
    rw [classSource, List.forall_mem_append, and_iff_left hdisplay, List.forall_mem_append, hstubs,
      List.forall_mem_cons, and_iff_right (fits_constructorSource o parent c), haccessors]
  have hvalues : (∀ t ∈ c.valueTypes, t.isVoid = false) ↔ (∀ p ∈ c.properties, p.type.isVoid = false) ∧
      ∀ f ∈ c.methods, ∀ p ∈ f.parameters, p.type.isVoid = false := by
    rw [Class.valueTypes, List.forall_mem_append, List.forall_mem_map, List.forall_mem_flatMap]
    simp only [List.forall_mem_map]
  rw [Source.Class.forall_uses_iff, hfields, hfunctions, hvalues]
  exact ⟨And.right, fun h => ⟨h.1, h⟩⟩

end Java

namespace Model

theorem voidOnlyReturned_php (m : Model) (o : Options) : VoidOnlyReturned .php (m.source o .php) := by
  intro k hk
  obtain ⟨c, -, rfl⟩ := List.mem_map.mp hk
  exact Php.fits_classSource o _ c

theorem voidOnlyReturned_java_iff (m : Model) (o : Options) :
    VoidOnlyReturned .java (m.source o .java) ↔ ∀ c ∈ m.classes, ∀ t ∈ c.valueTypes, t.isVoid = false := by
  unfold VoidOnlyReturned source
  rw [List.forall_mem_map]
  exact forall₂_congr fun c _ => Java.fits_classSource_iff o _ c

/-- **Types of no value.** A skeleton is the text of its declarations. In a PHP skeleton a type says that
there is no value only where nothing is returned, and there it does; in a Java skeleton this is so exactly
if no property and no parameter of the model has the type of no value. -/
theorem voidOnlyReturned_iff (m : Model) (o : Options) :
    (∀ target, m.skeleton o target = m.sourceText o target) ∧
      VoidOnlyReturned .php (m.source o .php) ∧
      (VoidOnlyReturned .java (m.source o .java) ↔
        ∀ c ∈ m.classes, ∀ t ∈ c.valueTypes, t.isVoid = false) :=
  ⟨m.skeleton_eq_sourceText o, m.voidOnlyReturned_php o, m.voidOnlyReturned_java_iff o⟩

/-- A property without a value is declared as a Java field of the type `void`. -/
theorem not_voidOnlyReturned_of_slot :
    let value : Property := ⟨"value", ⟨" Void"⟩, .ofText "private"⟩
    let m : Model := ⟨[⟨1, "Slot", [value], []⟩], []⟩
    Java.field value = [.line "private void value;"] ∧ ¬ VoidOnlyReturned .java (m.source .default .java) := by
  intro value m
  have htype : Java.typeText value.type = "void" := Java.typeText_eq_void_iff.mpr (by decide)
  refine ⟨?_, ?_⟩
  · rw [Java.field, htype]
    decide
  · rw [voidOnlyReturned_java_iff]
    decide

end Model

/-! ## Stubs -/

/-- The line of a stub that pretends to return something. -/
def Target.placeholder : Target → String
  | .java => "return null; // Placeholder return"
  | .php => "return null; // Placeholder return"
  | .python => "return None  # Placeholder return"

section
variable {target : Target} {f : Source.Function} {body : List Step} {t : TypeName} {type text : String}

namespace Source.Function

/-- The header reads as one with this type for its result. -/
def Promises (target : Target) (f : Source.Function) (type : String) : Prop :=
  f.header target = { f with result := some type }.header target

/-- The header promises one type, and the function keeps to it: it pretends to return something exactly if
this is not the type of no value. The placeholder is a line that the layout writes; a text with a line end in
it, which a header or a remark may repeat, can look like one. -/
def Consistent (target : Target) (f : Source.Function) : Prop :=
  (∃! type, f.Promises target type) ∧
    ∀ type, f.Promises target type → (.line target.placeholder ∈ f.steps target ↔ type ≠ target.noValue)

/-- What a header promises can be read off it. -/
theorem promises_iff (hresult : f.result = some type) {other : String} :
    f.Promises target other ↔ other = type := by
  constructor
  · intro h
    have hchars := congrArg String.toList h
    have hsame : type.toList = other.toList := by
      cases target with
      | java => simpa [header, hresult] using hchars
      | php => simpa [header, hresult] using hchars
      | python => simpa [header, hresult] using hchars
    exact (String.toList_injective hsame).symm
  · rintro rfl
    rw [Promises, ← hresult]

/-- A line that is no remark is one of the body. -/
theorem line_mem_steps_iff (h : ∀ r ∈ f.preface, r.text ≠ text) :
    .line text ∈ f.steps target ↔ .line text ∈ f.body := by
  have hremarks : Step.line text ∉ Remark.steps f.preface := by
    intro hmem
    obtain ⟨r, hr, htext⟩ := List.mem_map.mp hmem
    cases htext
    exact h r hr rfl
  rw [steps, List.mem_append, or_iff_right hremarks]
  cases target with
  | java => simp [block, braced]
  | php => simp [block, braced]
  | python => simp [block, indented]

/-- A function whose body ends in a placeholder, if it is to return something, is consistent when there is no
other placeholder in it. -/
theorem consistent_of_body (hresult : f.result = some (t.spelling target))
    (hbody : f.body = body ++ stepsIf (!t.isVoid) [.line target.placeholder])
    (hrest : EachLine (· ≠ target.placeholder) body) (hpreface : ∀ r ∈ f.preface, r.text ≠ target.placeholder) :
    f.Consistent target := by
  have hline : .line target.placeholder ∈ f.steps target ↔ t.isVoid = false := by
    have hnot : Step.line target.placeholder ∉ body := fun hmem => hrest _ hmem rfl
    rw [line_mem_steps_iff hpreface, hbody, List.mem_append, or_iff_right hnot]
    cases t.isVoid with
    | true => simp [stepsIf]
    | false => simp [stepsIf]
  constructor
  · exact ⟨t.spelling target, (promises_iff hresult).mpr rfl, fun _ => (promises_iff hresult).mp⟩
  · intro type htype
    rw [(promises_iff hresult).mp htype, hline, Ne, t.spelling_eq_noValue_iff, Bool.not_eq_true]

end Source.Function

/-- The stubs among the functions are those of the methods, in order, and they keep to their headers. -/
def KeepsToHeaders (target : Target) (methods : List Method) (functions : List Source.Function) : Prop :=
  functions.filterMap (·.role.method?) = methods ∧
    ∀ f ∈ functions, f.role.method?.isSome → f.Consistent target

/-- Around the stubs there may be functions of other kinds. -/
theorem keepsToHeaders_append {before after : List Source.Function} {methods : List Method}
    {stub : Method → Source.Function} (hrole : ∀ m, (stub m).role.method? = some m)
    (hstub : ∀ m, (stub m).Consistent target) (hbefore : ∀ f ∈ before, f.role.method? = none)
    (hafter : ∀ f ∈ after, f.role.method? = none) :
    KeepsToHeaders target methods (before ++ methods.map stub ++ after) := by
  constructor
  · have hmethods : (methods.map stub).filterMap (·.role.method?) = methods := by
      rw [List.filterMap_map]
      simp [hrole]
    rw [List.filterMap_append, List.filterMap_append, List.filterMap_eq_nil_iff.mpr hbefore, hmethods,
      List.filterMap_eq_nil_iff.mpr hafter, List.nil_append, List.append_nil]
  · intro f hf hmethod
    rcases List.mem_append.mp hf with hf | hf
    · rcases List.mem_append.mp hf with hf | hf
      · rw [hbefore f hf] at hmethod
        cases hmethod
      · obtain ⟨m, -, rfl⟩ := List.mem_map.mp hf
        exact hstub m
    · rw [hafter f hf] at hmethod
      cases hmethod

end

namespace Java

theorem consistent_methodSource (o : Options) (hasParent : Bool) (f : Method) :
    (methodSource o hasParent f).Consistent .java := by
  apply Source.Function.consistent_of_body (t := f.type) rfl rfl
  · rw [eachLine_append, eachLine_line_cons]
    refine ⟨EachLine.stepsIf ?_, by decide, eachLine_nil⟩
    rw [eachLine_line_cons]
    exact ⟨by decide, eachLine_nil⟩
  · intro r hr
    cases hr

theorem keepsToHeaders_classSource (o : Options) (parent : Option String) (c : Class) :
    KeepsToHeaders .java c.methods (classSource o parent c).functions := by
  apply keepsToHeaders_append (fun _ => rfl) (consistent_methodSource o parent.isSome)
  · rw [List.forall_mem_cons, Source.forall_mem_accessors_iff]
    exact ⟨rfl, fun _ _ => ⟨rfl, rfl⟩⟩
  · rw [List.forall_mem_map]
    exact fun _ _ => rfl

end Java

namespace Php

attribute [local irreducible] TypeToken.ofText

/-- A block of documentation has no placeholder if its lines begin differently. -/
theorem text_docRemarks_ne {o : Options} {remarks : List Remark} {text : String}
    (hfirst : "/**" ≠ text) (hlast : " */" ≠ text) (h : ∀ r ∈ remarks, r.text ≠ text) :
    ∀ r ∈ docRemarks o remarks, r.text ≠ text := by
  unfold docRemarks
  split
  · rw [List.cons_append, List.forall_mem_cons, List.forall_mem_append, List.forall_mem_singleton]
    exact ⟨hfirst, h, hlast⟩
  · intro r hr
    cases hr

/-- A line of documentation is no placeholder: it begins with a space. -/
theorem star_append_ne (text : String) : " * " ++ text ≠ Target.php.placeholder := by
  intro h
  have hhead := congrArg (·.toList.head?) h
  simp [Target.placeholder] at hhead

theorem consistent_methodSource (o : Options) (f : Method) : (methodSource o f).Consistent .php := by
  have hbody : (methodSource o f).body =
      [.line "// TODO: Implement method"] ++ stepsIf (!f.type.isVoid) [.line Target.php.placeholder] := rfl
  have htodo : EachLine (· ≠ Target.php.placeholder) [.line "// TODO: Implement method"] := by
    rw [eachLine_line_cons]
    exact ⟨by decide, eachLine_nil⟩
  have hpreface : ∀ r ∈ (methodSource o f).preface, r.text ≠ Target.php.placeholder := by
    apply text_docRemarks_ne (by decide) (by decide)
    rw [List.forall_mem_append, List.forall_mem_cons, List.forall_mem_map, List.forall_mem_singleton]
    exact ⟨⟨star_append_ne _, fun _ _ => star_append_ne _⟩, star_append_ne _⟩
  exact Source.Function.consistent_of_body rfl hbody htodo hpreface

theorem keepsToHeaders_classSource (o : Options) (parent : Option String) (c : Class) :
    KeepsToHeaders .php c.methods (classSource o parent c).functions := by
  have hothers : ∀ f ∈ constructorSource o parent c ::
      (if o.phpAccessors then c.properties.flatMap fun p => [getterSource o p, setterSource o p] else []),
      f.role.method? = none := by
    rw [List.forall_mem_cons]
    refine ⟨rfl, ?_⟩
    split
    · rw [Source.forall_mem_accessors_iff]
      exact fun _ _ => ⟨rfl, rfl⟩
    · exact List.forall_mem_nil _
  have hstubs : KeepsToHeaders .php c.methods (_ ++ c.methods.map (methodSource o) ++ []) :=
    keepsToHeaders_append (fun _ => rfl) (consistent_methodSource o) hothers (List.forall_mem_nil _)
  rwa [List.append_nil] at hstubs

end Php

namespace Python

theorem typeText_ne_placeholder (t : TypeName) : typeText t ≠ Target.python.placeholder := by
  have hwords : ∀ word ∈ pythonTypes, word ≠ Target.python.placeholder := by decide
  exact hwords _ t.spelling_python_mem

/-- A docstring may say what is returned, but it has no placeholder. -/
theorem eachLine_ne_placeholder_methodDoc (f : Method) :
    EachLine (· ≠ Target.python.placeholder) (methodDoc f) := by
  have harguments : EachLine (· ≠ Target.python.placeholder) (argumentDoc f.parameters) := by
    rw [argumentDoc, eachLine_append, eachLine_append, eachLine_map_line,
      eachLine_cons_of_ne .blank (by simp), eachLine_line_cons, eachLine_cons_of_ne .indent (by simp),
      eachLine_cons_of_ne .dedent (by simp)]
    refine ⟨⟨⟨by decide, eachLine_nil⟩, ?_⟩, eachLine_nil⟩
    intro p _
    exact append_ne_of_getLast? (by decide) (by decide)
  rw [methodDoc, quotes, eachLine_append, eachLine_append, eachLine_line_cons, eachLine_line_cons,
    eachLine_cons_of_ne .blank (by simp), eachLine_line_cons, eachLine_cons_of_ne .indent (by simp),
    eachLine_line_cons, eachLine_cons_of_ne .dedent (by simp), eachLine_line_cons]
  have hname : f.name ++ " method" ≠ Target.python.placeholder :=
    append_ne_of_getLast? (by decide) (by decide)
  exact ⟨⟨⟨by decide, hname, eachLine_nil⟩, EachLine.stepsIf harguments⟩, by decide,
    typeText_ne_placeholder f.type, by decide, eachLine_nil⟩

theorem consistent_methodSource (o : Options) (f : Method) : (methodSource o f).Consistent .python := by
  apply Source.Function.consistent_of_body (t := f.type) rfl rfl
  · rw [eachLine_append, eachLine_line_cons]
    exact ⟨EachLine.stepsIf (eachLine_ne_placeholder_methodDoc f), by decide, eachLine_nil⟩
  · intro r hr
    cases hr

theorem keepsToHeaders_classSource (o : Options) (parent : Option String) (c : Class) :
    KeepsToHeaders .python c.methods (classSource o parent c).functions := by
  have hothers : ∀ f ∈ [initializerSource parent c], f.role.method? = none := by
    rw [List.forall_mem_singleton]
    rfl
  apply keepsToHeaders_append (fun _ => rfl) (consistent_methodSource o) hothers
  rw [List.forall_mem_map]
  exact fun _ _ => rfl

end Python

namespace Model

/-- **Stubs keep to their headers.** A skeleton is the text of its declarations. In each class the stubs are
those of its methods, in order, and each is consistent: among the lines that are written for it there is a
placeholder exactly if the type in its header is not the one for no value. -/
theorem placeholder_iff (m : Model) (o : Options) (target : Target) :
    m.skeleton o target = m.sourceText o target ∧
      ∀ c ∈ m.classes, KeepsToHeaders target c.methods
        (target.classSource o (m.inheritance.parent? c.name) c).functions := by
  refine ⟨m.skeleton_eq_sourceText o target, fun c _ => ?_⟩
  cases target with
  | java => exact Java.keepsToHeaders_classSource o _ c
  | php => exact Php.keepsToHeaders_classSource o _ c
  | python => exact Python.keepsToHeaders_classSource o _ c

end Model

end UmlSkeleton

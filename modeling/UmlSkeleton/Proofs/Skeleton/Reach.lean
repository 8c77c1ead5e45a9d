import UmlSkeleton.Proofs.Layout.Reach
import UmlSkeleton.Proofs.Skeleton.Sections

/-!
# How deep skeletons reach

No skeleton is deeper than three levels, however large its model is. In braces a statement stands in a
member and a member in a class. In Python a class always has a statement in its initializer, and only what
the docstring of a method lists is one deeper. `Class.reach` says of a class how deep its block reaches, and
the lemmas follow the way from the pieces of a member to the whole skeleton.

* `reaches_block` — the block of a class, with all its members.
* `Model.reaches_layout` — a whole skeleton.
* `Model.reach_le` — the bound for all models, options and targets.
-/

namespace UmlSkeleton

/-- How deep the block of a class reaches. -/
def Class.reach (o : Options) (target : Target) (parent : Option String) (c : Class) : Nat :=
  match target with
  | .java | .php => if parent.isSome || !c.properties.isEmpty || !c.methods.isEmpty then 2 else 1
  | .python => if o.docs && !c.methods.isEmpty then 3 else 2

/-- How deep a skeleton reaches. What is not in the block of a class stands at the margin. -/
def Model.reach (m : Model) (o : Options) (target : Target) : Nat :=
  (m.classes.map fun c => c.reach o target (m.inheritance.parent? c.name)).foldr max 0

/-! ## Java -/

namespace Java

theorem reaches_field (p : Property) (d : Nat) : Reaches (field p) d d := .line (by simp) d

theorem reaches_constructor (o : Options) (parent : Option String) (c : Class) (d : Nat) :
    Reaches (constructor o parent c) d (if parent.isSome then d + 1 else d) := by
  have hcall : (if o.docs then "super(); // Call parent class constructor" else "super();") ≠ "" := by
    cases o.docs <;> decide
  have hbody := Reaches.lineIf parent.isSome hcall (d + 1)
  refine ((Reaches.lineIf o.docs (by decide) d).append hbody.braced).of_eq ?_
  cases o.docs <;> cases parent.isSome <;> simp

theorem reaches_getter (p : Property) (d : Nat) : Reaches (getter p) d (d + 1) :=
  (Reaches.line (by simp) (d + 1)).braced.of_eq (by simp)

theorem reaches_setter (p : Property) (d : Nat) : Reaches (setter p) d (d + 1) :=
  (Reaches.line (by simp) (d + 1)).braced.of_eq (by simp)

theorem reaches_accessors (p : Property) (d : Nat) : Reaches (spaced [getter p, setter p]) d (d + 1) :=
  (Reaches.spaced_pair (reaches_getter p d) (reaches_setter p d)).of_eq (Nat.max_self _)

theorem reaches_method (o : Options) (hasParent : Bool) (m : Method) (d : Nat) :
    Reaches (method o hasParent m) d (d + 1) := by
  refine Reaches.of_eq (.braced (.append
    (.append (.lineIf _ (by decide) _) (.line (by decide) _))
    (.lineIf _ (by decide) _))) ?_
  cases hasParent && o.docs <;> cases m.type.isVoid <;> simp

theorem reaches_toStringMethod (parent : String) (c : Class) (d : Nat) :
    Reaches (toStringMethod parent c) d (d + 1) :=
  ((Reaches.line (by decide) d).append (Reaches.line (by simp) (d + 1)).braced).of_eq (by simp)

theorem reaches_members (o : Options) (parent : Option String) (c : Class) (d : Nat) :
    Reaches (spaced (members o parent c)) d
      (if parent.isSome || !c.properties.isEmpty || !c.methods.isEmpty then d + 1 else d) := by
  have hconstructor := reaches_constructor o parent c d
  have haccessors := Reaches.spaced_flatMap fun p (_ : p ∈ c.properties) => reaches_accessors p d
  have hmethods := Reaches.spaced_map fun m (_ : m ∈ c.methods) => reaches_method o parent.isSome m d
  have hshown := Reaches.spaced_map fun p (_ : p ∈ parent.toList) => reaches_toStringMethod p c d
  refine Reaches.of_eq (.spaced_append (.spaced_append (.spaced_cons hconstructor haccessors) hmethods)
    hshown) ?_
  cases parent <;> cases c.properties <;> cases c.methods <;> simp

theorem reaches_classBlock (o : Options) (parent : Option String) (c : Class) :
    Reaches (classBlock o parent c) 0 (c.reach o .java parent) := by
  have hfields := Reaches.flatMap_const fun p (_ : p ∈ c.properties) => reaches_field p 1
  refine (hfields.append (reaches_members o parent c 1)).braced.of_eq ?_
  unfold Class.reach
  cases parent <;> cases c.properties <;> cases c.methods <;> simp

end Java

/-! ## PHP -/

namespace Php

theorem reaches_docBlock (o : Options) (texts : List String) (d : Nat) :
    Reaches (docBlock o texts) d (if o.docs then d else 0) := by
  refine Reaches.stepsIf o.docs fun _ => .of_eq (.append (.append (.line (by decide) d)
    (.lines (fun text _ => by simp) d)) (.line (by decide) d)) ?_
  cases texts <;> simp

/-- Documentation does not reach deeper than the block that it is about. -/
theorem reaches_documented {o : Options} {texts : List String} {steps : List Step} {d n : Nat}
    (h : Reaches steps d n) (hle : d ≤ n) : Reaches (docBlock o texts ++ steps) d n := by
  refine ((reaches_docBlock o texts d).append h).of_eq ?_
  split <;> omega

theorem reaches_property (o : Options) (p : Property) (d : Nat) : Reaches (property o p) d d := by
  have hline : Reaches [.line (propertyKeyword p.visibility ++ " $" ++ p.name ++ ";")] d d :=
    .line (by simp) d
  refine Reaches.of_eq (.append (.stepsIf o.docs fun _ => .append (.gap d) (.line (by simp) d)) hline) ?_
  cases o.docs <;> simp

theorem reaches_assignments (ps : List Property) (d : Nat) :
    Reaches (ps.map assignment) d (if ps.isEmpty then 0 else d) :=
  .lines (fun p _ => by simp) d

theorem reaches_constructor (o : Options) (parent : Option String) (c : Class) (d : Nat) :
    Reaches (constructor o parent c) d (if parent.isSome || !c.properties.isEmpty then d + 1 else d) := by
  have hbody := (Reaches.lineIf parent.isSome (show "parent::__construct();" ≠ "" by decide) (d + 1)).append
    (reaches_assignments c.properties (d + 1))
  refine reaches_documented (hbody.braced.of_eq ?_) (by split <;> omega)
  cases parent <;> cases c.properties <;> simp

theorem reaches_getter (o : Options) (p : Property) (d : Nat) : Reaches (getter o p) d (d + 1) := by
  have hbody := Reaches.line (show "return $this->" ++ p.name ++ ";" ≠ "" by simp) (d + 1)
  exact reaches_documented (hbody.braced.of_eq (by simp)) (Nat.le_succ d)

theorem reaches_setter (o : Options) (p : Property) (d : Nat) : Reaches (setter o p) d (d + 1) := by
  have hbody := Reaches.line_cons (show "$this->" ++ p.name ++ " = $" ++ p.name ++ ";" ≠ "" by simp)
    (.line (show "return $this;" ≠ "" by decide) (d + 1))
  exact reaches_documented (hbody.braced.of_eq (by simp)) (Nat.le_succ d)

theorem reaches_method (o : Options) (m : Method) (d : Nat) : Reaches (method o m) d (d + 1) := by
  refine reaches_documented (.of_eq (.braced (.line_cons ?_ (.lineIf _ ?_ _))) ?_) (Nat.le_succ d)
  · decide
  · decide
  · cases m.type.isVoid <;> simp

/-- Accessors reach no deeper than the constructor, which assigns to the same properties. -/
theorem reaches_members (o : Options) (parent : Option String) (c : Class) (d : Nat) :
    Reaches (spaced (members o parent c)) d
      (if parent.isSome || !c.properties.isEmpty || !c.methods.isEmpty then d + 1 else d) := by
  have haccessors : Reaches (spaced (accessors o c)) d
      (if o.phpAccessors && !c.properties.isEmpty then d + 1 else 0) := by
    unfold accessors
    cases o.phpAccessors with
    | false => exact .nil d
    | true =>
        refine (Reaches.spaced_flatMap fun p _ => ?_).of_eq (by cases c.properties <;> rfl)
        exact (Reaches.spaced_pair (reaches_getter o p d) (reaches_setter o p d)).of_eq (Nat.max_self _)
  have hmethods := Reaches.spaced_map fun m (_ : m ∈ c.methods) => reaches_method o m d
  refine Reaches.of_eq (.spaced_append (.spaced_cons (reaches_constructor o parent c d) haccessors)
    hmethods) ?_
  cases o.phpAccessors <;> cases parent <;> cases c.properties <;> cases c.methods <;> simp

theorem reaches_classBlock (o : Options) (parent : Option String) (c : Class) :
    Reaches (classBlock o parent c) 0 (c.reach o .php parent) := by
  have hproperties := Reaches.flatMap_const fun p (_ : p ∈ c.properties) => reaches_property o p 1
  refine reaches_documented ((hproperties.append (reaches_members o parent c 1)).braced.of_eq ?_)
    (Nat.zero_le _)
  unfold Class.reach
  cases parent <;> cases c.properties <;> cases c.methods <;> simp

end Php

/-! ## Python -/

namespace Python

/-- The body of an initializer is never empty. -/
theorem reaches_initializer (parent : Option String) (c : Class) (d : Nat) :
    Reaches (initializer parent c) d (d + 1) := by
  refine Reaches.of_eq (.indented (by simp) (.append (.append (.lineIf _ (by decide) _)
    (.lines (fun p _ => by simp) _)) (.lineIf _ (by decide) _))) ?_
  cases parent <;> cases c.properties <;> simp

theorem reaches_argumentDoc (ps : List Parameter) (d : Nat) :
    Reaches (argumentDoc ps) d (if ps.isEmpty then d else d + 1) := by
  have hlines := Reaches.lines
    (fun p (_ : p ∈ ps) => show p.name ++ ": " ++ p.type.raw ++ " parameter" ≠ "" by simp) (d + 1)
  have hlist := Reaches.titled (show "Args:" ≠ "" by decide) hlines
  refine ((Reaches.blank d).append hlist).of_eq ?_
  cases ps <;> simp

theorem typeText_ne_empty (t : TypeName) : typeText t ≠ "" := by
  have hwords : ∀ word ∈ pythonTypes, word ≠ "" := by decide
  exact hwords _ t.spelling_python_mem

/-- The result is listed in any case, the parameters if there are any. -/
theorem reaches_methodDoc (m : Method) (d : Nat) : Reaches (methodDoc m) d (d + 1) := by
  have hquotes : Reaches [quotes] d d := .line (by decide) d
  have hname : Reaches [.line (m.name ++ " method")] d d := .line (by simp) d
  have harguments := Reaches.stepsIf (!m.parameters.isEmpty) fun _ => reaches_argumentDoc m.parameters d
  have hresult := Reaches.titled (show "Returns:" ≠ "" by decide)
    (.line (typeText_ne_empty m.type) (d + 1))
  have hback := ((Reaches.blank d).append hresult).append hquotes
  refine (((hquotes.append hname).append harguments).append hback).of_eq ?_
  cases m.parameters <;> simp

theorem reaches_method (o : Options) (m : Method) (d : Nat) :
    Reaches (method o m) d (if o.docs then d + 2 else d + 1) := by
  have hdoc : Reaches (stepsIf o.docs (methodDoc m)) (d + 1) (if o.docs then d + 2 else 0) :=
    .stepsIf o.docs fun _ => reaches_methodDoc m (d + 1)
  refine Reaches.of_eq (.indented (by simp) (.append (.append hdoc (.line (by decide) _))
    (.lineIf _ (by decide) _))) ?_
  cases o.docs <;> cases m.type.isVoid <;> simp

theorem reaches_strMethod (c : Class) (d : Nat) : Reaches (strMethod c) d (d + 1) :=
  .of_eq (.indented (by decide) (.line (by simp) _)) (by simp)

theorem reaches_classDoc (parent : Option String) (c : Class) (d : Nat) :
    Reaches (classDoc parent c) d d := by
  have hquotes : Reaches [quotes] d d := .line (by decide) d
  refine Reaches.of_eq (.line_cons (by decide) (.line_cons ?_ hquotes)) ?_
  · cases parent <;> simp
  · simp

theorem reaches_members (o : Options) (parent : Option String) (c : Class) (d : Nat) :
    Reaches (spaced (members o parent c)) d (if o.docs && !c.methods.isEmpty then d + 2 else d + 1) := by
  have hmethods := Reaches.spaced_map fun m (_ : m ∈ c.methods) => reaches_method o m d
  have hshown := Reaches.spaced_map fun p (_ : p ∈ parent.toList) => reaches_strMethod c d
  refine Reaches.of_eq (.spaced_append (.spaced_cons (reaches_initializer parent c d) hmethods) hshown) ?_
  cases o.docs <;> cases parent <;> cases c.methods <;> simp

theorem reaches_classBlock (o : Options) (parent : Option String) (c : Class) :
    Reaches (classBlock o parent c) 0 (c.reach o .python parent) := by
  have hdoc := Reaches.stepsIf o.docs fun _ => reaches_classDoc parent c 1
  refine Reaches.of_eq (.indented ?_ (.append hdoc (reaches_members o parent c 1))) ?_
  · simp [header]
  · unfold Class.reach
    cases o.docs <;> cases c.methods <;> simp

end Python

/-! ## Skeletons -/

theorem reaches_block (o : Options) (target : Target) (parent : Option String) (c : Class) :
    Reaches (target.dialect.block o parent c) 0 (c.reach o target parent) := by
  cases target with
  | java => exact Java.reaches_classBlock o parent c
  | php => exact Php.reaches_classBlock o parent c
  | python => exact Python.reaches_classBlock o parent c

theorem reaches_prologue (target : Target) : Reaches target.dialect.prologue 0 0 := by
  cases target with
  | java => exact .nil 0
  | php => exact .line (by decide) 0
  | python => exact .line (by decide) 0

theorem reaches_separator (target : Target) : Reaches target.dialect.separator 0 0 := by
  cases target with
  | java => exact .gap 0
  | php => exact .gap 0
  | python => exact (Reaches.gap 0).append (.blank 0)

namespace Model

variable (m : Model) (o : Options) (target : Target)

theorem reaches_trailer : Reaches (m.trailer target) 0 0 := by
  have htexts : ∀ text ∈ m.trailerLines target, text ≠ "" := by
    intro text htext
    rcases List.mem_cons.mp htext with rfl | htext
    · simp
    · obtain ⟨_, -, rfl⟩ := List.mem_map.mp htext
      simp
  exact (Reaches.lines htexts 0).of_eq (ite_self 0)

/-- A skeleton reaches as deep as the deepest of its blocks. -/
theorem reaches_layout : Reaches (m.layout o target) 0 (m.reach o target) := by
  have hblocks := Reaches.flatMap fun c (_ : c ∈ m.classes) =>
    (reaches_separator target).append (reaches_block o target (m.inheritance.parent? c.name) c)
  have htrailer := Reaches.stepsIf o.trailer fun _ =>
    (reaches_separator target).append (m.reaches_trailer target)
  refine (((reaches_prologue target).append hblocks).append htrailer).of_eq ?_
  simp only [Nat.zero_max, ite_self, Nat.max_zero]
  rfl

theorem reach_rows : reachOfRows (rows .start (m.layout o target)) = m.reach o target :=
  (m.reaches_layout o target).reach_rows false

theorem climbs_rows : Climbs 0 (rows .start (m.layout o target)) :=
  (m.reaches_layout o target).climbs false

/-- How many bytes a skeleton takes. -/
theorem utf8ByteSize_skeleton :
    (m.skeleton o target).utf8ByteSize = sizeOfRows o.indent (rows .start (m.layout o target)) :=
  utf8ByteSize_textOfRows ..

/-- No skeleton reaches deeper than three levels. -/
theorem reach_le : m.reach o target ≤ 3 := by
  have hclass (parent : Option String) (c : Class) : c.reach o target parent ≤ 3 := by
    unfold Class.reach
    cases target <;> dsimp only <;> split <;> decide
  unfold reach
  induction m.classes with
  | nil => exact Nat.zero_le 3
  | cons c cs ih => exact Nat.max_le.mpr ⟨hclass _ c, ih⟩

end Model

end UmlSkeleton

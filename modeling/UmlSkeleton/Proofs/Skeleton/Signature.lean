import UmlSkeleton.Proofs.Java.View
import UmlSkeleton.Proofs.Model.Outline
import UmlSkeleton.Proofs.Model.Presentation
import UmlSkeleton.Proofs.Python.Echoes

/-!
# What skeletons look at

The *signature* of a model leaves out the labels of its relationships and how its types were written: of a
type only the token is left. Java and PHP look at nothing else. Python does not even look at visibilities,
but the docstrings of its methods repeat the types of parameters as they were written; so of two models with
the same signature the Python skeletons are the same without these echoes.

How a visibility is spelled is gone as soon as a document is read.

* `Model.signature` — the signature, given what is seen of visibilities.
* `Java.classView_congr`, `Php.classBlock_congr`, `Python.alike_classBlock_of_signature` — blocks of classes
  with the same signature.
* `Model.check_of_signature`, `inheritance_of_signature`, `trailer_of_signature` — what is the same of models
  with the same signature.
* `Model.skeleton_signature` — skeletons of models with the same signature.
-/

namespace UmlSkeleton

open Json Text

/-! ## Signatures -/

/-- The name and the type of a parameter. -/
def Parameter.signature (p : Parameter) : String × TypeToken := (p.name, p.type.token)

section
variable {β : Type} (see : Visibility → β)

def Property.signature (p : Property) : String × TypeToken × β := (p.name, p.type.token, see p.visibility)

def Method.signature (f : Method) : String × TypeToken × β × List (String × TypeToken) :=
  (f.name, f.type.token, see f.visibility, f.parameters.map Parameter.signature)

def Class.signature (c : Class) : Key × String × List (String × TypeToken × β) ×
    List (String × TypeToken × β × List (String × TypeToken)) :=
  (c.key, c.name, c.properties.map (Property.signature see), c.methods.map (Method.signature see))

/-- A relationship without its label. -/
def Relationship.unlabelled (r : Relationship) : Relationship := { r with label := none }

/-- What is left of a model without labels and without the texts of its types, `see` saying what is left of
visibilities. -/
def Model.signature (m : Model) : List (Key × String × List (String × TypeToken × β) ×
    List (String × TypeToken × β × List (String × TypeToken))) × List Relationship :=
  (m.classes.map (Class.signature see), m.relationships.map Relationship.unlabelled)

end

/-- What does not depend on more than the name and the type of a parameter is seen in its signature. -/
theorem Parameter.factorsThrough {γ : Type} {f : Parameter → γ}
    (h : ∀ {p q : Parameter}, p.name = q.name → p.type.token = q.type.token → f p = f q) :
    f.FactorsThrough Parameter.signature := by
  intro p q hpq
  obtain ⟨hname, htype⟩ := Prod.mk.inj hpq
  exact h hname htype

theorem Property.factorsThrough {β γ : Type} {see : Visibility → β} {f : Property → γ}
    (h : ∀ {p q : Property}, p.name = q.name → p.type.token = q.type.token → f p = f q) :
    f.FactorsThrough (Property.signature see) := by
  intro p q hpq
  obtain ⟨hname, hmore⟩ := Prod.mk.inj hpq
  exact h hname (Prod.mk.inj hmore).1

theorem forall₂_of_map_eq {α γ : Type} {view : α → γ} {xs ys : List α} (h : xs.map view = ys.map view) :
    List.Forall₂ (fun x y => view x = view y) xs ys := by
  rw [← List.forall₂_map_right_iff (f := view) (R := fun x y => view x = y),
    ← List.forall₂_map_left_iff (f := view), List.forall₂_eq_eq_eq]
  exact h

/-! ## Java -/

namespace Java

theorem fieldView_congr : fieldView.FactorsThrough (Property.signature id) := by
  intro p q h
  simp only [Property.signature, Prod.mk.injEq, id_eq] at h
  obtain ⟨hname, htype, hvisibility⟩ := h
  simp only [fieldView, typeText, TypeName.spelling, hname, htype, hvisibility]

theorem parameterView_congr : parameterView.FactorsThrough Parameter.signature :=
  Parameter.factorsThrough fun hname htype => by
    simp only [parameterView, typeText, TypeName.spelling, hname, htype]

theorem methodView_congr : methodView.FactorsThrough (Method.signature id) := by
  intro f g h
  simp only [Method.signature, Prod.mk.injEq, id_eq] at h
  obtain ⟨hname, htype, hvisibility, hparameters⟩ := h
  have hviews := map_eq_of_factorsThrough parameterView_congr hparameters
  simp only [methodView, typeText, TypeName.spelling, hname, htype, hvisibility, hviews]

theorem classView_congr (parent : Option String) : (classView parent).FactorsThrough (Class.signature id) := by
  intro c d h
  simp only [Class.signature, Prod.mk.injEq] at h
  obtain ⟨-, hname, hproperties, hmethods⟩ := h
  rw [classView, hname, map_eq_of_factorsThrough fieldView_congr hproperties,
    map_eq_of_factorsThrough methodView_congr hmethods, ← classView]

end Java

/-! ## PHP -/

namespace Php

section
variable (o : Options)

theorem property_congr : (property o).FactorsThrough (Property.signature id) := by
  intro p q h
  simp only [Property.signature, Prod.mk.injEq, id_eq] at h
  obtain ⟨hname, htype, hvisibility⟩ := h
  simp only [property, valueTypeText, typeText, TypeName.spelling, hname, htype, hvisibility]

theorem accessors_congr : (fun p => [getter o p, setter o p]).FactorsThrough (Property.signature id) :=
  Property.factorsThrough fun hname htype => by
    simp only [getter, setter, paramDoc, assignment, valueTypeText, typeText, TypeName.spelling, hname, htype]

/-- What the constructor says of a property: in its documentation, in its header and in its body. -/
theorem constructor_congr (parent : Option String) :
    (constructor o parent).FactorsThrough (Class.signature id) := by
  intro c d h
  simp only [Class.signature, Prod.mk.injEq] at h
  have hmap {γ : Type} {f : Property → γ} (hf : f.FactorsThrough (Property.signature id)) :
      c.properties.map f = d.properties.map f := map_eq_of_factorsThrough hf h.2.2.1
  have hdoc : c.properties.map (fun p => paramDoc p.type p.name) =
      d.properties.map fun p => paramDoc p.type p.name :=
    hmap <| Property.factorsThrough fun hname htype => by
      simp only [paramDoc, valueTypeText, typeText, TypeName.spelling, hname, htype]
  have hheader : c.properties.map (fun p => nullable (typeText p.type) ++ " $" ++ p.name ++ " = null") =
      d.properties.map fun p => nullable (typeText p.type) ++ " $" ++ p.name ++ " = null" :=
    hmap <| Property.factorsThrough fun hname htype => by
      simp only [typeText, TypeName.spelling, hname, htype]
  have hbody : c.properties.map assignment = d.properties.map assignment :=
    hmap <| Property.factorsThrough fun hname _ => by simp only [assignment, hname]
  rw [constructor, hdoc, hheader, hbody, ← constructor]

theorem method_congr : (method o).FactorsThrough (Method.signature id) := by
  intro f g h
  simp only [Method.signature, Prod.mk.injEq, id_eq] at h
  obtain ⟨hname, htype, hvisibility, hparameters⟩ := h
  have hdoc : f.parameters.map (fun p => paramDoc p.type p.name) =
      g.parameters.map fun p => paramDoc p.type p.name :=
    map_eq_of_factorsThrough (Parameter.factorsThrough fun hname htype => by
      simp only [paramDoc, valueTypeText, typeText, TypeName.spelling, hname, htype]) hparameters
  have hheader : f.parameters.map (fun p => valueTypeText p.type ++ " $" ++ p.name) =
      g.parameters.map fun p => valueTypeText p.type ++ " $" ++ p.name :=
    map_eq_of_factorsThrough (Parameter.factorsThrough fun hname htype => by
      simp only [valueTypeText, typeText, TypeName.spelling, hname, htype]) hparameters
  rw [method, hdoc, hheader]
  simp only [method, typeText, TypeName.spelling, TypeName.isVoid, hname, htype, hvisibility]

theorem classBlock_congr (parent : Option String) :
    (classBlock o parent).FactorsThrough (Class.signature id) := by
  intro c d h
  have hconstructor := constructor_congr o parent h
  simp only [Class.signature, Prod.mk.injEq] at h
  obtain ⟨-, hname, hproperties, hmethods⟩ := h
  have hlines := congrArg List.flatten (map_eq_of_factorsThrough (property_congr o) hproperties)
  have haccessors := congrArg List.flatten (map_eq_of_factorsThrough (accessors_congr o) hproperties)
  have hstubs := map_eq_of_factorsThrough (method_congr o) hmethods
  rw [← List.flatMap_def, ← List.flatMap_def] at hlines haccessors
  simp only [classBlock, header, members, accessors, hname, hlines, haccessors, hstubs, hconstructor]

end

end Php

/-! ## Python -/

namespace Python

section
variable {β : Type} {see : Visibility → β} (o : Options) {c d : Class}

theorem initializer_congr (parent : Option String) : (initializer parent).FactorsThrough (Class.signature see) := by
  intro c d h
  simp only [Class.signature, Prod.mk.injEq] at h
  have hmap {γ : Type} {f : Property → γ} (hf : f.FactorsThrough (Property.signature see)) :
      c.properties.map f = d.properties.map f := map_eq_of_factorsThrough hf h.2.2.1
  have hheader : c.properties.map (fun p => ", " ++ p.name ++ ": " ++ optionalType (typeText p.type) ++ " = None") =
      d.properties.map fun p => ", " ++ p.name ++ ": " ++ optionalType (typeText p.type) ++ " = None" :=
    hmap <| Property.factorsThrough fun hname htype => by
      simp only [typeText, TypeName.spelling, hname, htype]
  have hbody : c.properties.map (fun p => Step.line ("self." ++ p.name ++ " = " ++ p.name)) =
      d.properties.map fun p => .line ("self." ++ p.name ++ " = " ++ p.name) :=
    hmap <| Property.factorsThrough fun hname _ => by simp only [hname]
  have hempty : c.properties.isEmpty = d.properties.isEmpty := by
    simpa using congrArg List.isEmpty h.2.2.1
  rw [initializer, hheader, hbody, hempty, ← initializer]

theorem strMethod_congr : strMethod.FactorsThrough (Class.signature see) := by
  intro c d h
  simp only [Class.signature, Prod.mk.injEq] at h
  have hnames : c.properties.map (·.name) = d.properties.map (·.name) :=
    map_eq_of_factorsThrough (Property.factorsThrough fun hname _ => hname) h.2.2.1
  rw [strMethod, hnames, h.2.1, ← strMethod]

/-- The header and the body of a method depend on its signature, and its docstring does but for the
echoes. -/
theorem alike_method_of_signature {f g : Method} (w : Nat) (h : f.signature see = g.signature see) :
    echoView.Alike w (method o f) (method o g) := by
  simp only [Method.signature, Prod.mk.injEq] at h
  obtain ⟨hname, htype, -, hparameters⟩ := h
  have htexts : f.parameters.map (fun p => ", " ++ p.name ++ ": " ++ typeText p.type) =
      g.parameters.map fun p => ", " ++ p.name ++ ": " ++ typeText p.type :=
    map_eq_of_factorsThrough (Parameter.factorsThrough fun hname htype => by
      simp only [typeText, TypeName.spelling, hname, htype]) hparameters
  have hempty : f.parameters.isEmpty = g.parameters.isEmpty := by
    simpa using congrArg List.isEmpty hparameters
  have htypeText : typeText f.type = typeText g.type := congrArg (·.spelling .python) htype
  have hheader : methodHeader f = methodHeader g := by
    rw [methodHeader, htexts, hname, htypeText, ← methodHeader]
  have hbody : methodBody f = methodBody g := by
    rw [methodBody, TypeName.isVoid, htype, ← TypeName.isVoid, ← methodBody]
  have hdoc : echoView.Alike w (stepsIf o.docs (methodDoc f)) (stepsIf o.docs (methodDoc g)) :=
    (alike_methodDoc hname htypeText hempty).stepsIf
  rw [method_eq, method_eq, hheader, hbody]
  exact alike_indented_of_isHeader (title_methodHeader g).isHeader
    (hdoc.append (alike_of_unquoted (unquoted_methodBody g)))

theorem alike_classBlock_of_signature (w : Nat) (parent : Option String) (h : c.signature see = d.signature see) :
    echoView.Alike w (classBlock o parent c) (classBlock o parent d) := by
  have hinitializer := initializer_congr parent h
  have hshow := strMethod_congr h
  simp only [Class.signature, Prod.mk.injEq] at h
  obtain ⟨-, hname, -, hmethods⟩ := h
  -- Of the members only the methods may differ, and there are as many of them.
  have hmembers : List.Forall₂ (echoView.Alike w) (members o parent c) (members o parent d) := by
    rw [members, members, hinitializer, hshow]
    refine List.rel_append (.cons (alike_of_unquoted (unquoted_initializer parent d)) ?_) ?_
    · rw [List.forall₂_map_left_iff, List.forall₂_map_right_iff]
      exact (forall₂_of_map_eq hmethods).imp fun f g h => alike_method_of_signature o w h
    · exact View.forall₂_map fun _ _ => alike_of_unquoted (unquoted_strMethod d)
  have hheader : header parent c = header parent d := by rw [header, hname, ← header]
  have hdoc : classDoc parent c = classDoc parent d := by rw [classDoc, hname, ← classDoc]
  rw [classBlock, classBlock, hheader, hdoc]
  have hstart : echoView.Alike w (stepsIf o.docs (classDoc parent d)) (stepsIf o.docs (classDoc parent d)) :=
    (echoing_classDoc parent d).alike.stepsIf
  exact alike_indented_of_isHeader (title_header parent d).isHeader
    (hstart.append (View.Alike.spaced hmembers (alike_of_unquoted unquoted_gap)))

end

end Python

/-! ## Models -/

namespace Model

/-- A model without labels. -/
def unlabelled (m : Model) : Model := { m with relationships := m.relationships.map Relationship.unlabelled }

theorem inheritance_unlabelled (m : Model) : m.unlabelled.inheritance = m.inheritance := by
  rw [inheritance, generalizations_eq, unlabelled, List.filterMap_map, inheritance, generalizations_eq]
  rfl

theorem trailer_unlabelled (m : Model) (target : Target) : m.unlabelled.trailer target = m.trailer target := by
  rw [trailer, trailerLines_eq, unlabelled, List.filterMap_map, trailer, trailerLines_eq]
  rfl

section
variable {β : Type} {see : Visibility → β} {m n : Model} (h : m.signature see = n.signature see)
include h

theorem faces_of_signature : m.classes.map Class.face = n.classes.map Class.face :=
  map_eq_of_factorsThrough (fun _ _ h => congrArg (fun s => (s.1, s.2.1)) h) (congrArg Prod.fst h)

theorem inheritance_of_signature : m.inheritance = n.inheritance := by
  have hfaces := faces_of_signature h
  rw [← inheritance_unlabelled, ← inheritance_unlabelled n]
  exact @inheritance_congr m.unlabelled n.unlabelled hfaces (congrArg Prod.snd h)

theorem trailer_of_signature (target : Target) : m.trailer target = n.trailer target := by
  have hfaces := faces_of_signature h
  rw [← trailer_unlabelled, ← trailer_unlabelled n]
  exact @trailer_congr m.unlabelled n.unlabelled hfaces (congrArg Prod.snd h) target

/-- Whether a model is refused, and why, is seen from the faces of its classes. -/
theorem check_of_signature : m.check = n.check := by
  -- The search for a defect does not look at members, so it may as well be done without them.
  have hview : Function.FactorsThrough (fun c => (⟨c.key, c.name, [], []⟩ : Class)) Class.face := by
    intro c d h
    simp only [Class.face, Prod.mk.injEq] at h
    simp only [h]
  have hbare := map_eq_of_factorsThrough hview (faces_of_signature h)
  have hadd (m : Model) : m.classes.foldlM Seen.add .nothing =
      (m.classes.map fun c => (⟨c.key, c.name, [], []⟩ : Class)).foldlM Seen.add .nothing := by
    rw [List.foldlM_map]
    rfl
  rw [check, defect?, hadd, hbare, ← hadd, ← defect?, ← check]

/-- If the signature of a class decides its block, the signature of a model decides its layout. -/
theorem layout_of_signature {o : Options} {target : Target}
    (hblock : ∀ parent, (target.dialect.block o parent).FactorsThrough (Class.signature see)) :
    m.layout o target = n.layout o target := by
  have hblocks : m.classes.map (m.block o target) = n.classes.map (n.block o target) := by
    have hsame : n.block o target = m.block o target := by
      funext c
      rw [block, ← inheritance_of_signature h, ← block]
    rw [hsame]
    refine map_eq_of_factorsThrough (fun c d hcd => ?_) (congrArg Prod.fst h)
    have hname : c.name = d.name := congrArg (·.2.1) hcd
    rw [block, hname]
    exact hblock _ hcd
  rw [layout_eq, layout_eq, sections, hblocks, trailer_of_signature h, ← sections]

/-- Skeletons in Python look alike but for the echoes. -/
theorem alike_layout_of_signature (o : Options) (w : Nat) :
    Python.echoView.Alike w (m.layout o .python) (n.layout o .python) := by
  have hblocks : List.Forall₂ (Python.echoView.Alike w) (m.classes.map (m.block o .python))
      (n.classes.map (n.block o .python)) := by
    rw [List.forall₂_map_left_iff, List.forall₂_map_right_iff]
    refine (forall₂_of_map_eq (congrArg Prod.fst h)).imp fun c d hcd => ?_
    have hname : c.name = d.name := congrArg (·.2.1) hcd
    rw [block, block, inheritance_of_signature h, hname]
    exact Python.alike_classBlock_of_signature o w _ hcd
  have hsections : List.Forall₂ (Python.echoView.Alike w) (m.sections o .python) (n.sections o .python) := by
    refine List.rel_append hblocks ?_
    rw [trailer_of_signature h]
    split
    · exact .cons (Python.alike_of_unquoted (n.unquoted_trailer .python)) .nil
    · exact .nil
  rw [layout_eq, layout_eq]
  exact (Python.alike_of_unquoted Target.python.unquoted_prologue).append
    ((Python.alike_of_unquoted Target.python.unquoted_separator).separated hsections)

end

/-! ## Skeletons -/

/-- The lines that are written for a model. -/
def writtenLines (m : Model) (o : Options) (target : Target) : List String :=
  linesOf o.indent .start (m.layout o target)

theorem skeleton_eq_join (m : Model) (o : Options) (target : Target) :
    m.skeleton o target = String.join ((m.writtenLines o target).map (· ++ "\n")) :=
  textOfRows_eq_join _ _

/-- The parameters of all methods of a model. -/
def parameters (m : Model) : List Parameter := m.classes.flatMap fun c => c.methods.flatMap (·.parameters)

/-- A skeleton in Python echoes the parameters of all methods, if there is documentation at all. -/
theorem echoing_layout (m : Model) (o : Options) (w : Nat) : Python.Echoing w (m.layout o .python)
    (if o.docs then m.parameters.map fun p => Python.content (Python.argument p) else []) := by
  have hseparator : Python.Echoing w Target.python.dialect.separator [] :=
    .of_unquoted Target.python.unquoted_separator
  have hclasses := Python.Echoing.flatMap fun c (_ : c ∈ m.classes) =>
    hseparator.append (Python.echoing_classBlock w o (m.inheritance.parent? c.name) c)
  have htrailer := hseparator.append (Python.Echoing.of_unquoted (w := w) (m.unquoted_trailer .python))
  have hlayout := ((Python.Echoing.of_unquoted Target.python.unquoted_prologue).append hclasses).append
    (htrailer.stepsIf o.trailer)
  have hout : (m.classes.flatMap fun c => if o.docs then c.methods.flatMap fun f =>
      f.parameters.map fun p => Python.content (Python.argument p) else []) =
        if o.docs then m.parameters.map fun p => Python.content (Python.argument p) else [] := by
    cases o.docs <;> simp [parameters, List.map_flatMap]
  simp only [List.nil_append, List.append_nil, ite_self] at hlayout
  rw [← hout]
  exact hlayout

theorem generate_eq (m : Model) (o : Options) (target : Target) :
    m.generate o target = m.check.map fun _ => String.join ((m.writtenLines o target).map (· ++ "\n")) := by
  rw [← skeleton_eq_join, generate]
  cases m.check <;> rfl

/-- **What skeletons look at.** Models with the same signature have the same skeletons in Java and in PHP,
with the same options, whether they are checked or not, and if they are refused it is for the same reason. In
Python what is seen of visibilities is not looked at; without documentation the skeletons are the same, and
with it they are the same without the echoes. The lines are those that a skeleton is put together from, and of
these exactly the ones that list the parameters of methods are echoes. Documents that differ in how
visibilities are spelled describe the same model, so they have the same skeletons in all targets. -/
theorem skeleton_signature (m : Model) :
    (∀ {n : Model}, m.signature id = n.signature id → ∀ o, m.skeleton o .java = n.skeleton o .java ∧
      m.skeleton o .php = n.skeleton o .php ∧ m.generate o .java = n.generate o .java ∧
      m.generate o .php = n.generate o .php) ∧
    (∀ {n : Model} {β : Type} {see : Visibility → β}, m.signature see = n.signature see → ∀ o,
      (o.docs = false → m.skeleton o .python = n.skeleton o .python ∧
        m.generate o .python = n.generate o .python) ∧ m.check = n.check ∧
        Python.withoutEchoes (m.writtenLines o .python) = Python.withoutEchoes (n.writtenLines o .python)) ∧
    (∀ o target, m.skeleton o target = String.join ((m.writtenLines o target).map (· ++ "\n")) ∧
      m.generate o target =
        m.check.map fun _ => String.join ((m.writtenLines o target).map (· ++ "\n"))) ∧
    (∀ o, (Python.echoes (m.writtenLines o .python)).map Python.content =
      if o.docs then m.parameters.map fun p => Python.content (Python.argument p) else []) ∧
    ∀ {text text' : String} {d d' : Document}, decode text = .ok m → d.SpelledBy text →
      Relation.EqvGen (Edited Respelled format.shape) d d' → d'.SpelledBy text' →
        decode text' = .ok m ∧ ∀ o target, generateFrom text' o target = generateFrom text o target := by
  refine ⟨fun {n} h o => ?_, fun {n β see} h o => ?_,
    fun o target => ⟨m.skeleton_eq_join o target, m.generate_eq o target⟩, fun o => ?_, ?_⟩
  · have hjava : m.layout o .java = n.layout o .java := layout_of_signature h fun parent c d hcd =>
      Java.classBlock_congr o (Java.classView_congr parent hcd)
    have hphp : m.layout o .php = n.layout o .php := layout_of_signature h (Php.classBlock_congr o)
    have hsame {target : Target} (hlayout : m.layout o target = n.layout o target) :
        m.skeleton o target = n.skeleton o target := by
      rw [skeleton, hlayout, ← skeleton]
    refine ⟨hsame hjava, hsame hphp, ?_, ?_⟩
    · rw [generate, generate, check_of_signature h, hsame hjava]
    · rw [generate, generate, check_of_signature h, hsame hphp]
  · have hlines := (alike_layout_of_signature h o o.indent).shown_eq rfl
    have hcheck := check_of_signature h
    refine ⟨fun hdocs => ?_, hcheck, hlines⟩
    -- Without documentation there are no echoes, so nothing is lost without them.
    have hnone (m : Model) : Python.withoutEchoes (m.writtenLines o .python) = m.writtenLines o .python := by
      have hechoes := (m.echoing_layout o o.indent).echoes_eq .start
      rw [hdocs] at hechoes
      exact Python.withoutEchoes_eq_self (List.map_eq_nil_iff.mp hechoes)
    have hsame : m.writtenLines o .python = n.writtenLines o .python := by
      rw [← hnone m, ← hnone n]
      exact hlines
    rw [skeleton_eq_join, skeleton_eq_join, generate_eq, generate_eq, hcheck, hsame]
    exact ⟨rfl, rfl⟩
  · exact (m.echoing_layout o o.indent).echoes_eq .start
  · intro text text' d d' h hd hedits hd'
    have h' : decode text' = .ok m :=
      settled.decode_edited Respelled.alike lawful.distinct hd hedits hd' h
    refine ⟨h', fun o target => ?_⟩
    rw [generateFrom, generateFrom, ofText, ofText, h, h']

/-- A dog with an age is fed. Neither the case of `INT` nor the label matters, in Python the visibilities do
not either, and in a document `+` is as good as `public`. -/
theorem skeleton_signature_of_dog :
    let dog (type : String) (access : Access) (label : Option String) : Model :=
      ⟨[⟨1, "Dog", [⟨"age", ⟨type⟩, .level access⟩],
          [⟨"feed", ⟨"void"⟩, .level access, [⟨"amount", ⟨type⟩⟩]⟩]⟩],
        [⟨1, 1, .known .association, label, none⟩]⟩
    let m := dog "int" .everyone none
    let n := dog " INT " .everyone (some "feeds")
    let p := dog " INT " .owner (some "feeds")
    let document (visibility : String) : Tree := .object [("classes", .list [.object [("key", .integer 1),
      ("name", .text "Dog"), ("properties", .list [.object [("name", .text "age"), ("type", .text "int"),
        ("visibility", .text visibility)]]), ("methods", .list [])]]), ("relationships", .list [])]
    (m.signature id = n.signature id ∧ m.skeleton .default .java = n.skeleton .default .java ∧
      m.skeleton .default .php = n.skeleton .default .php) ∧
    (m.signature (fun _ => ()) = p.signature (fun _ => ()) ∧
      m.skeleton { Options.default with docs := false } .python =
        p.skeleton { Options.default with docs := false } .python ∧
      Python.withoutEchoes (m.writtenLines .default .python) =
        Python.withoutEchoes (p.writtenLines .default .python)) ∧
    ∀ target, generateFrom (document " + ").compact .default target =
      generateFrom (document "public").pretty .default target := by
  intro dog m n p document
  have htoken : (⟨"int"⟩ : TypeName).token = (⟨" INT "⟩ : TypeName).token := by decide
  have htypes {β : Type} (see : Visibility → β) (access : Access) (label : Option String) :
      (dog "int" access none).signature see = (dog " INT " access label).signature see := by
    simp [dog, signature, Class.signature, Property.signature, Method.signature, Parameter.signature,
      Relationship.unlabelled, htoken]
  have hsame : m.signature id = n.signature id := htypes id .everyone _
  have halike : m.signature (fun _ => ()) = p.signature fun _ => () := htypes (fun _ => ()) .everyone _
  let read : Model := ⟨[⟨1, "Dog", [⟨"age", ⟨"int"⟩, .level .everyone⟩], []⟩], []⟩
  have hdocument : decode (document "public").pretty = .ok read := decode_pretty read
  have hedits : Relation.EqvGen (Edited Respelled format.shape) (document "public").document
      (document " + ").document := .rel _ _ <|
    @Edited.member _ _ _ _ _ _ _ [] _ .head <| @Edited.item _ _ _ _ [] [] <|
      @Edited.member _ _ _ _ _ _ _ [_, _] _ (.tail (.tail .head)) <| @Edited.item _ _ _ _ [] [] <|
        .record (@Respelled.member _ _ _ [_, _] [] (.tail (.tail .head)) (by decide))
  obtain ⟨hjava, hphp, -, -⟩ := (skeleton_signature m).1 hsame .default
  refine ⟨⟨hsame, hjava, hphp⟩, ⟨halike, ?_, ?_⟩, fun target => ?_⟩
  · exact (((skeleton_signature m).2.1 halike { Options.default with docs := false }).1 rfl).1
  · exact ((skeleton_signature m).2.1 halike .default).2.2
  · exact ((skeleton_signature read).2.2.2.2 hdocument (Tree.spelledBy_pretty _) hedits
      (Tree.spelledBy_compact _)).2 .default target

end Model

end UmlSkeleton

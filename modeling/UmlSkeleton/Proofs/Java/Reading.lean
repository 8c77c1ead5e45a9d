import UmlSkeleton.Proofs.Java.View
import UmlSkeleton.Proofs.Skeleton.Factorisation
import UmlSkeleton.Proofs.Skeleton.Lines

/-!
# Reading a Java skeleton back

A Java skeleton of plain classes can be read in one way only. The fields come first and are the lines that
end in a semicolon; so it is known how many accessors follow, and every other member has a header that ends
in a brace, up to the brace that closes the class or the line before `toString`. In a line the words are
seen by the characters between them; a modifier and a type cannot be mistaken for each other, because
without a modifier there is one word less.

* `fieldLine_inj`, `methodHeader_inj`, `classHeader_inj` — what a single line says.
* `readable_methods`, `readable_classBlock` — where a member and a class end, whatever follows.
* `skeleton_java_eq_iff` — two models have the same skeleton exactly if they have the same views.
-/

namespace UmlSkeleton.Java

open Text

/-! ## Lines -/

/-- A modifier, a type and a name, and then anything. -/
theorem toList_typed (modifier : Option String) (type name rest : String) :
    (spacedModifier modifier ++ type ++ " " ++ name ++ rest).toList =
      spacedWords (modifier.toList ++ [type]) ++ (name.toList ++ rest.toList) := by
  cases modifier with
  | none => simp [spacedModifier, spacedWords]
  | some w => simp [spacedModifier, spacedWords]

theorem typed_inj {modifier modifier' : Option String} {type type' name name' : String}
    (hmodifier : ∀ w ∈ modifier.toList, Word w) (hmodifier' : ∀ w ∈ modifier'.toList, Word w)
    (htype : Word type) (htype' : Word type') (hname : Word name) (hname' : Word name') {c : Char}
    (hc : isWordChar c = false) (hspace : c ≠ ' ') {r s : List Char}
    (h : spacedWords (modifier.toList ++ [type]) ++ (name.toList ++ c :: r) =
      spacedWords (modifier'.toList ++ [type']) ++ (name'.toList ++ c :: s)) :
    modifier = modifier' ∧ type = type' ∧ name = name' ∧ r = s := by
  have hwords {m : Option String} {t n : String} (hm : ∀ w ∈ m.toList, Word w) (ht : Word t)
      (hn : Word n) : ∀ w ∈ n :: (m.toList ++ [t]), Word w :=
    List.forall_mem_cons.mpr ⟨hn, List.forall_mem_append.mpr ⟨hm, by simpa using ht⟩⟩
  obtain ⟨hfront, hlast, hrest⟩ := spacedWords_inj (hwords hmodifier htype hname)
    (hwords hmodifier' htype' hname') hc hspace h
  obtain ⟨hmodifiers, htypes⟩ := List.append_inj' hfront rfl
  have hsame : modifier = modifier' := by
    rw [← Option.head?_toList (o := modifier), hmodifiers, Option.head?_toList]
  exact ⟨hsame, (List.cons.inj htypes).1, hlast, hrest⟩

theorem fieldLine_inj {p q : Property} (hp : p.Plain) (hq : q.Plain)
    (h : fieldLine p = fieldLine q) : fieldView p = fieldView q := by
  have hchars := congrArg String.toList h
  rw [fieldLine, fieldLine, toList_typed, toList_typed] at hchars
  obtain ⟨hmodifier, htype, hname, -⟩ := typed_inj word_fieldModifier? word_fieldModifier?
    (word_typeText hp.2) (word_typeText hq.2) hp.1 hq.1 (by decide) (by decide) hchars
  rw [fieldView, hmodifier, htype, hname, ← fieldView]

/-! ## Parameters -/

theorem readable_parameter :
    Readable Parameter.Plain Breaks (fun p => (parameter p).toList) parameterView := by
  intro p q hp hq r s hr hs h
  have hchars (a : Parameter) (t : List Char) :
      (parameter a).toList ++ t = (typeText a.type).toList ++ ' ' :: (a.name.toList ++ t) := by
    simp [parameter]
  rw [hchars, hchars] at h
  obtain ⟨htype, h⟩ := (word_typeText hp.2).append_inj (word_typeText hq.2)
    (breaks_cons (by decide) _) (breaks_cons (by decide) _) h
  obtain ⟨hname, hrest⟩ := hp.1.append_inj hq.1 hr hs (List.cons.inj h).2
  exact ⟨by rw [parameterView, htype, hname, ← parameterView], hrest⟩

/-- A parameter that is not the first one. -/
def furtherParameter (p : Parameter) : List Char := ',' :: ' ' :: (parameter p).toList

theorem readable_furtherParameter :
    Readable Parameter.Plain Breaks furtherParameter parameterView := by
  intro p q hp hq r s hr hs h
  exact readable_parameter p q hp hq r s hr hs (List.cons.inj (List.cons.inj h).2).2

theorem toList_parameters (p : Parameter) (ps : List Parameter) :
    (commaList ((p :: ps).map parameter)).toList =
      (parameter p).toList ++ ps.flatMap furtherParameter := by
  have hfurther : (fun a => (", " ++ parameter a).toList) = furtherParameter := by
    funext a
    simp [furtherParameter]
  rw [commaList, List.map_cons, intercalate_cons_eq_join, String.toList_append, String.toList_join,
    List.flatMap_map, List.flatMap_map, hfurther]

/-- A list of parameters is closed by a parenthesis. -/
theorem parameters_inj {ps qs : List Parameter} (hps : ∀ p ∈ ps, p.Plain) (hqs : ∀ q ∈ qs, q.Plain)
    {r s : List Char} (h : (commaList (ps.map parameter)).toList ++ ')' :: r =
      (commaList (qs.map parameter)).toList ++ ')' :: s) :
    ps.map parameterView = qs.map parameterView := by
  -- The first type begins with a character of a word, which a parenthesis is not.
  have hfirst {p : Parameter} (hp : p.Plain) (more t u : List Char) :
      (parameter p).toList ++ more ++ t ≠ ')' :: u := by
    have hword := (word_typeText hp.2).append_ne (breaks_cons (by decide : isWordChar ')' = false) u)
      (' ' :: (p.name.toList ++ (more ++ t)))
    simpa [parameter] using hword
  have hclose (t : List Char) :
      Breaks (')' :: t) ∧ EndsItems Parameter.Plain furtherParameter (')' :: t) := by
    refine ⟨breaks_cons (by decide) t, ?_⟩
    intro p _ u heq
    exact absurd (List.cons.inj heq).1 (by decide)
  cases ps with
  | nil =>
      cases qs with
      | nil => rfl
      | cons q qs =>
          rw [toList_parameters] at h
          exact absurd h.symm (hfirst (hqs q (List.mem_cons_self ..)) _ _ _)
  | cons p ps =>
      cases qs with
      | nil =>
          rw [toList_parameters] at h
          exact absurd h (hfirst (hps p (List.mem_cons_self ..)) _ _ _)
      | cons q qs =>
          obtain ⟨hp, hps⟩ := List.forall_mem_cons.mp hps
          obtain ⟨hq, hqs⟩ := List.forall_mem_cons.mp hqs
          have hbreaks {as : List Parameter} (t : List Char) :
              Breaks (as.flatMap furtherParameter ++ ')' :: t) := by
            cases as with
            | nil => exact breaks_cons (by decide) t
            | cons a as => exact breaks_cons (by decide) _
          rw [toList_parameters, toList_parameters, List.append_assoc, List.append_assoc] at h
          obtain ⟨hview, hmore⟩ := readable_parameter p q hp hq _ _ (hbreaks r) (hbreaks s) h
          obtain ⟨hviews, -⟩ := readable_furtherParameter.flatMap
            (fun a _ t => breaks_cons (by decide) _) hps hqs (hclose r) (hclose s) hmore
          rw [List.map_cons, List.map_cons, hview, hviews]

/-! ## Headers -/

def methodHeader (f : Method) : String :=
  spacedModifier (methodModifier? f.visibility) ++ typeText f.type ++ " " ++ f.name ++ "(" ++
    commaList (f.parameters.map parameter) ++ ")"

theorem methodHeader_inj {f g : Method} (hf : f.Plain) (hg : g.Plain)
    (h : methodHeader f = methodHeader g) : methodView f = methodView g := by
  have hsplit (a : Method) : methodHeader a =
      spacedModifier (methodModifier? a.visibility) ++ typeText a.type ++ " " ++ a.name ++
        ("(" ++ commaList (a.parameters.map parameter) ++ ")") := by
    simp only [methodHeader, String.append_assoc]
  have hchars (texts : List String) : ("(" ++ commaList texts ++ ")").toList =
      '(' :: ((commaList texts).toList ++ [')']) := by
    simp
  have hlist := congrArg String.toList h
  rw [hsplit, hsplit, toList_typed, toList_typed, hchars, hchars] at hlist
  obtain ⟨hmodifier, htype, hname, hrest⟩ := typed_inj word_methodModifier? word_methodModifier?
    (word_typeText hf.2.1) (word_typeText hg.2.1) hf.1 hg.1 (by decide) (by decide) hlist
  rw [methodView, hmodifier, htype, hname, parameters_inj hf.2.2 hg.2.2 hrest, ← methodView]

theorem classHeader_inj {parent parent' : Option String} {c d : Class} (hc : Word c.name)
    (hd : Word d.name) (hp : ∀ p ∈ parent.toList, Word p) (hp' : ∀ p ∈ parent'.toList, Word p)
    (h : header parent c ++ " \x7b" = header parent' d ++ " \x7b") :
    c.name = d.name ∧ parent = parent' := by
  have hchars (a : Class) (q : Option String) : (header q a ++ " \x7b").toList =
      "public class ".toList ++ (a.name.toList ++
        ((q.elim "" (" extends " ++ ·)).toList ++ [' ', '\x7b'])) := by
    simp [header]
  have hbreaks (q : Option String) :
      Breaks ((q.elim "" (" extends " ++ ·)).toList ++ [' ', '\x7b']) := by
    cases q with
    | none => exact breaks_cons (by decide) _
    | some q =>
        simp only [Option.elim_some, String.toList_append]
        exact breaks_cons (by decide) _
  have hlist := congrArg String.toList h
  rw [hchars, hchars] at hlist
  obtain ⟨hname, hrest⟩ := hc.append_inj hd (hbreaks parent) (hbreaks parent')
    (List.append_cancel_left hlist)
  refine ⟨hname, ?_⟩
  cases parent with
  | none =>
      cases parent' with
      | none => rfl
      | some q => simp at hrest
  | some p =>
      cases parent' with
      | none => simp at hrest
      | some q =>
          simp only [Option.elim_some, String.toList_append, List.append_assoc] at hrest
          obtain ⟨hparent, -⟩ := (hp p (by simp)).append_inj (hp' q (by simp))
            (breaks_cons (by decide) _) (breaks_cons (by decide) _) (List.append_cancel_left hrest)
          rw [hparent]

/-! ## Members -/

/-- A text that ends in a semicolon is the line of a field, as long as there are fields. -/
def EndsFields (rest : List String) : Prop :=
  ∀ text ∈ rest.head?, text.toList.getLast? ≠ some ';'

theorem getLast?_fieldLine (p : Property) : (fieldLine p).toList.getLast? = some ';' :=
  getLast?_toList_append (by decide)

theorem fieldLines_inj {ps qs : List Property} (hps : ∀ p ∈ ps, p.Plain) (hqs : ∀ q ∈ qs, q.Plain)
    {r s : List String} (hr : EndsFields r) (hs : EndsFields s)
    (h : ps.map fieldLine ++ r = qs.map fieldLine ++ s) :
    ps.map fieldView = qs.map fieldView ∧ r = s := by
  have hline : Readable Property.Plain (fun _ => True) (fun p => [fieldLine p]) fieldView := by
    intro p q hp hq r s _ _ heq
    obtain ⟨hlines, hrest⟩ := List.cons.inj heq
    exact ⟨fieldLine_inj hp hq hlines, hrest⟩
  have hends {t : List String} (ht : EndsFields t) :
      EndsItems Property.Plain (fun p => [fieldLine p]) t := by
    rintro p - u rfl
    exact ht _ rfl (getLast?_fieldLine p)
  rw [List.map_eq_flatMap, List.map_eq_flatMap] at h
  exact hline.flatMap (fun _ _ _ => trivial) hps hqs ⟨trivial, hends hr⟩ ⟨trivial, hends hs⟩ h

theorem method_eq (o : Options) (hasParent : Bool) (f : Method) :
    ∃ body, textsOf (method o hasParent f) = (methodHeader f ++ " \x7b") :: body :=
  ⟨_, textsOf_braced _ _⟩

theorem readable_methods (o : Options) (hasParent : Bool) :
    Readable Method.Plain (fun _ => True) (fun f => "" :: textsOf (method o hasParent f))
      methodView := by
  intro f g hf hg r s _ _ h
  obtain ⟨-, hmember⟩ := List.cons.inj h
  have hview : methodView f = methodView g := by
    obtain ⟨body, hbody⟩ := method_eq o hasParent f
    obtain ⟨body', hbody'⟩ := method_eq o hasParent g
    have hheaders := hmember
    rw [hbody, hbody'] at hheaders
    exact methodHeader_inj hf hg ((String.append_left_inj _).mp (List.cons.inj hheaders).1)
  -- Methods with the same view are written in the same way, so what is left is what follows them.
  change textsOf (method o hasParent f) ++ r = textsOf (method o hasParent g) ++ s at hmember
  rw [method_congr o hasParent hview] at hmember
  exact ⟨hview, List.append_cancel_left hmember⟩

/-! ## Classes -/

theorem endsFields_constructor (o : Options) (parent : Option String) (c : Class) (gap : Bool)
    (rest : List String) :
    EndsFields ((if gap then [] else [""]) ++ (textsOf (constructor o parent c) ++ rest)) := by
  have hconstructor : EndsFields (textsOf (constructor o parent c) ++ rest) := by
    intro text htext
    have hheader : ("public " ++ c.name ++ "()" ++ " \x7b").toList.getLast? = some '\x7b' :=
      getLast?_toList_append (by decide)
    rw [constructor, textsOf, List.filterMap_append, ← textsOf, ← textsOf, textsOf_braced] at htext
    cases hdocs : o.docs with
    | false =>
        rw [hdocs] at htext
        rw [← Option.some.inj htext, hheader]
        decide
    | true =>
        rw [hdocs] at htext
        rw [← Option.some.inj htext]
        decide
  cases gap with
  | true => exact hconstructor
  | false =>
      intro text htext
      rw [← Option.some.inj htext]
      decide

theorem endsItems_toStringMethod (o : Options) (parent : Option String) (c : Class)
    (rest : List String) :
    EndsItems Method.Plain (fun f => "" :: textsOf (method o parent.isSome f))
      (siblingTexts (parent.toList.map (toStringMethod · c)) ++ "\x7d" :: rest) := by
  intro f _ s heq
  obtain ⟨body, hbody⟩ := method_eq o parent.isSome f
  change "" :: textsOf (method o parent.isSome f) ++ s = _ at heq
  rw [hbody] at heq
  cases parent with
  | none => exact absurd (List.cons.inj heq).1 (by decide)
  | some p =>
      have hoverride : methodHeader f ++ " \x7b" = "@Override" :=
        (List.cons.inj (List.cons.inj heq).2).1
      exact append_ne_of_getLast? (by decide) (by decide) hoverride

theorem classBlock_inj (o : Options) {parent parent' : Option String} {c d : Class}
    (hp : ∀ p ∈ parent.toList, Word p) (hp' : ∀ p ∈ parent'.toList, Word p) (hc : c.Plain)
    (hd : d.Plain) {r s : List String}
    (h : rowTexts .start (classBlock o parent c) ++ r =
      rowTexts .start (classBlock o parent' d) ++ s) :
    classView parent c = classView parent' d ∧ r = s := by
  have hview : classView parent c = classView parent' d := by
    rw [rowTexts_classBlock, rowTexts_classBlock] at h
    simp only [List.cons_append, List.append_assoc] at h
    obtain ⟨hheader, h⟩ := List.cons.inj h
    obtain ⟨hname, rfl⟩ := classHeader_inj hc.1 hd.1 hp hp' hheader
    obtain ⟨hfields, h⟩ := fieldLines_inj hc.2.1 hd.2.1
      (endsFields_constructor o parent c c.properties.isEmpty _)
      (endsFields_constructor o parent d d.properties.isEmpty _) h
    -- Name, parent and fields are known, and with them all up to the first method.
    have hempty : c.properties.isEmpty = d.properties.isEmpty := by
      rw [← List.isEmpty_map (f := fieldView), hfields, List.isEmpty_map]
    have hconstructor : constructor o parent c = constructor o parent d := by
      rw [constructor, hname, ← constructor]
    rw [hempty, hconstructor, map_eq_of_factorsThrough accessors_congr hfields] at h
    have hmembers := List.append_cancel_left
      (List.append_cancel_left (List.append_cancel_left h))
    rw [siblingTexts_map _ c.methods, siblingTexts_map _ d.methods] at hmembers
    obtain ⟨hmethods, -⟩ := (readable_methods o parent.isSome).flatMap (fun _ _ _ => trivial) hc.2.2
      hd.2.2 ⟨trivial, endsItems_toStringMethod o parent c _⟩
      ⟨trivial, endsItems_toStringMethod o parent d _⟩ hmembers
    simp only [classView, hname, hfields, hmethods]
  -- Classes with the same view have the same block, so what is left is what follows it.
  rw [classBlock_congr o hview] at h
  exact ⟨hview, List.append_cancel_left h⟩

/-! ## Sequences of classes -/

/-- The block of a class with its parent, where a gap is due before it. -/
def classSection (o : Options) (e : Option String × Class) : List Step := .gap :: classBlock o e.1 e.2

/-- What the rows of a class say, with a blank row before them. -/
def sectionRows (o : Options) (e : Option String × Class) : List String :=
  "" :: rowTexts .start (classBlock o e.1 e.2)

def sectionView (e : Option String × Class) : ClassView := classView e.1 e.2

/-- The class is plain, and its parent has a name like one. -/
def PlainSection (e : Option String × Class) : Prop := (∀ p ∈ e.1.toList, Word p) ∧ e.2.Plain

theorem readable_sectionRows (o : Options) :
    Readable PlainSection (fun _ => True) (sectionRows o) sectionView := by
  rintro ⟨parent, c⟩ ⟨parent', d⟩ ⟨hp, hc⟩ ⟨hp', hd⟩ r s - - h
  exact classBlock_inj o hp hp' hc hd (List.cons.inj h).2

theorem rowTexts_sections (o : Options) (es : List (Option String × Class)) :
    rowTexts ⟨0, true⟩ (es.flatMap (classSection o)) = es.flatMap (sectionRows o) := by
  induction es with
  | nil => rfl
  | cons e es ih =>
      have hafter : Margin.run ⟨0, true⟩ (classSection o e) = ⟨0, true⟩ :=
        settled_classBlock o e.1 e.2 .start
      rw [List.flatMap_cons, rowTexts_append, hafter, ih]
      rfl

/-- The first section opens the page, so there is no blank row before it. -/
theorem rowTexts_start_sections (o : Options) (es : List (Option String × Class)) :
    rowTexts .start (es.flatMap (classSection o)) = (es.flatMap (sectionRows o)).tail := by
  cases es with
  | nil => rfl
  | cons e es =>
      have hafter : Margin.run .start (classSection o e) = ⟨0, true⟩ :=
        settled_classBlock o e.1 e.2 .start
      rw [List.flatMap_cons, rowTexts_append, hafter, rowTexts_sections]
      rfl

/-- The rows of a sequence of plain classes show the view of each of them. -/
theorem sectionViews_eq (o : Options) {es fs : List (Option String × Class)}
    (hes : ∀ e ∈ es, PlainSection e) (hfs : ∀ e ∈ fs, PlainSection e)
    (h : rowTexts .start (es.flatMap (classSection o)) =
      rowTexts .start (fs.flatMap (classSection o))) :
    es.map sectionView = fs.map sectionView := by
  rw [rowTexts_start_sections, rowTexts_start_sections] at h
  have hnonempty (e : Option String × Class) (more : List (Option String × Class)) :
      ((e :: more).flatMap (sectionRows o)).tail ≠ [] := by
    simp [sectionRows, rowTexts_classBlock]
  cases es with
  | nil =>
      cases fs with
      | nil => rfl
      | cons f fs => exact absurd h.symm (hnonempty f fs)
  | cons e es =>
      cases fs with
      | nil => exact absurd h (hnonempty e es)
      | cons f fs =>
          have hall : (e :: es).flatMap (sectionRows o) = (f :: fs).flatMap (sectionRows o) :=
            congrArg ("" :: ·) h
          have hend : EndsItems PlainSection (sectionRows o) [] := by
            intro e _ s heq
            cases heq
          exact ((readable_sectionRows o).flatMap (fun _ _ _ => trivial) hes hfs ⟨trivial, hend⟩
            ⟨trivial, hend⟩ (congrArg (· ++ []) hall)).1

end UmlSkeleton.Java

/-! ## Models -/

namespace UmlSkeleton.Model

open Text Java

/-- The classes in order, each with the parent that the model gives it. -/
def withParents (m : Model) : List (Option String × Class) :=
  m.classes.map fun c => (m.inheritance.parent? c.name, c)

theorem javaViews_eq (m : Model) : m.javaViews = m.withParents.map sectionView := by
  rw [withParents, List.map_map]
  rfl

theorem layout_java (m : Model) {o : Options} (ho : o.trailer = false) :
    m.layout o .java = m.withParents.flatMap (classSection o) := by
  rw [layout_eq, sections, ho, withParents, List.flatMap_map]
  simp only [List.append_nil, Bool.false_eq_true, if_false]
  rw [List.flatMap_map]
  rfl

theorem plain_withParents {m : Model} (hm : ∀ c ∈ m.classes, c.Plain) :
    ∀ e ∈ m.withParents, PlainSection e := by
  intro e he
  obtain ⟨c, hc, rfl⟩ := List.mem_map.mp he
  refine ⟨fun p hp => ?_, hm c hc⟩
  obtain ⟨d, hd, rfl⟩ := exists_class_of_parent? (Option.mem_toList.mp hp)
  exact (hm d hd).1

theorem eachText_layout_java {m : Model} (hm : ∀ c ∈ m.classes, c.Plain) {o : Options}
    (ho : o.trailer = false) : EachText Upright (m.layout o .java) := by
  rw [m.layout_java ho, eachText_flatMap]
  intro e he
  obtain ⟨hparent, hplain⟩ := plain_withParents hm e he
  exact eachText_cons.mpr ⟨by simp [Step.text?], eachText_classBlock o hplain hparent⟩

/-- **Unique readability.** Without a trailer, two models of plain classes have the same Java skeleton
exactly if they show the same: as many classes, and in each place the same name and parent, the same
fields and the same methods, in the same order. -/
theorem skeleton_java_eq_iff {m n : Model} (hm : ∀ c ∈ m.classes, c.Plain)
    (hn : ∀ c ∈ n.classes, c.Plain) {o : Options} (ho : o.trailer = false) :
    m.skeleton o .java = n.skeleton o .java ↔ m.javaViews = n.javaViews := by
  rw [m.javaViews_eq, n.javaViews_eq]
  constructor
  · intro h
    have hrows := rowTexts_eq_of_layOut_eq (eachText_layout_java hm ho)
      (eachText_layout_java hn ho) h
    rw [m.layout_java ho, n.layout_java ho] at hrows
    exact sectionViews_eq o (plain_withParents hm) (plain_withParents hn) hrows
  · intro h
    have hsection : (classSection o).FactorsThrough sectionView :=
      fun e f hview => congrArg (List.cons Step.gap) (classBlock_congr o hview)
    rw [skeleton, skeleton, m.layout_java ho, n.layout_java ho, List.flatMap_def,
      map_eq_of_factorsThrough hsection h, ← List.flatMap_def]

/-- The line `public Box() {` is the constructor of a box, and it is also a method for the package whose
type is called `public`; `getSize` is an accessor of one box and a method of another. With no spaces for
a level of indentation, the skeletons are still different. Two spellings of a type and two visibilities
that are both private make no difference. -/
theorem skeleton_java_of_box :
    let o : Options := ⟨0, false, false, false⟩
    let size : Property := ⟨"size", ⟨"int"⟩, .level .owner⟩
    let getSize : Method := ⟨"getSize", ⟨"INT"⟩, .level .everyone, []⟩
    let setSize : Method := ⟨"setSize", ⟨"void"⟩, .level .everyone, [⟨"size", ⟨"Int"⟩⟩]⟩
    let box : Method := ⟨"Box", ⟨"public"⟩, .level .package, []⟩
    let m : Model := ⟨[⟨1, "Box", [size], [box]⟩], []⟩
    let n : Model := ⟨[⟨1, "Box", [], [getSize, setSize, box]⟩], []⟩
    let size' : Property := ⟨"size", ⟨"INT"⟩, .ofText "secret"⟩
    let k : Model := ⟨[⟨2, "Box", [size'], [box]⟩], []⟩
    (∀ c ∈ m.classes ++ n.classes ++ k.classes, c.Plain) ∧
      m.skeleton o .java ≠ n.skeleton o .java ∧ m.skeleton o .java = k.skeleton o .java ∧ m ≠ k := by
  intro o size getSize setSize box m n size' k
  have hm : ∀ c ∈ m.classes, c.Plain := by decide
  have hn : ∀ c ∈ n.classes, c.Plain := by decide
  have hk : ∀ c ∈ k.classes, c.Plain := by decide
  have hfields : m.javaViews ≠ n.javaViews := by decide
  have hsame : m.javaViews = k.javaViews := by decide
  exact ⟨by decide, mt (skeleton_java_eq_iff hm hn rfl).mp hfields,
    (skeleton_java_eq_iff hm hk rfl).mpr hsame, by decide⟩

end UmlSkeleton.Model

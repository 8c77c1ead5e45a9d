import Mathlib.Logic.Relation
import UmlSkeleton.Proofs.Json.Acceptance
import UmlSkeleton.Proofs.Json.Editing
import UmlSkeleton.Proofs.Model.RoundTrip

/-!
# What reading a model does not see

Two documents are the same model if they differ in the order of members, in members that no record
declares, and in how it is written that nothing is there (`Rearranged`). A type and a visibility may be
`null` or the empty text instead of missing, a label and a multiplicity may be `null`, a list may be empty.

All formats of a model look at an optional text through `canonicalText` only (`Format.Settled`), so it is
enough that an edit keeps the meaning up to that.
-/

namespace UmlSkeleton

open Json

/-! ## What optional texts stand for -/

/-- The text that an optional text is as good as. A type or a kind that is missing is the empty text, and
a visibility is the one that the text names. -/
def canonicalText (field : String) (s : Option String) : Option String :=
  if field = "type" then some (s.getD "")
  else if field = "visibility" then some (Visibility.ofOption s).text
  else s

theorem canonicalText_type (s : Option String) : canonicalText "type" s = some (s.getD "") := if_pos rfl

theorem canonicalText_visibility (s : Option String) :
    canonicalText "visibility" s = some (Visibility.ofOption s).text := by
  rw [canonicalText, if_neg (by decide), if_pos rfl]

theorem canonicalText_of_ne {field : String} (htype : field ≠ "type") (hvisibility : field ≠ "visibility")
    (s : Option String) : canonicalText field s = s := by
  rw [canonicalText, if_neg htype, if_neg hvisibility]

/-- A format sees nothing of an optional text but what it stands for. -/
def Format.Settled (f : Format α) : Prop :=
  ∀ (name : String) (value : f.shape.Value),
    f.ofValue (f.shape.settle canonicalText name value) = f.ofValue value

namespace Format

variable {f : Format α}

theorem Settled.map_ofValue (h : f.Settled) (name : String) (values : List f.shape.Value) :
    (values.map (f.shape.settle canonicalText name)).map f.ofValue = values.map f.ofValue := by
  rw [List.map_map]
  exact List.map_congr_left fun value _ => h name value

/-- What is read of a text is what its document means. -/
theorem toOption_decode (f : Format α) {d : Document} {text : String} (h : d.SpelledBy text) :
    (f.decode text).toOption = (f.shape.value? d).map f.ofValue := by
  have hdocument := toOption_document f.shape.reads h
  rw [← hdocument, decode]
  cases f.shape.reader.document text <;> rfl

/-- A text that is read spells a document. -/
theorem exists_spelledBy {text : String} {a : α} (h : f.decode text = .ok a) :
    ∃ d : Document, d.SpelledBy text := by
  cases hdocument : f.shape.reader.document text with
  | error e => rw [decode, hdocument] at h; cases h
  | ok value => exact Shape.exists_spelledBy hdocument

/-- Documents that mean the same up to what texts stand for are read as the same. -/
theorem Settled.decode_eq_ok {name : String} {d d' : Document} {text text' : String} {a : α}
    (hf : f.Settled) (hd : d.SpelledBy text) (hd' : d'.SpelledBy text')
    (halike : f.shape.Alike canonicalText name d d') (h : f.decode text = .ok a) :
    f.decode text' = .ok a := by
  have hsettle (e : Document) : (f.shape.value? e).map f.ofValue =
      ((f.shape.value? e).map (f.shape.settle canonicalText name)).map f.ofValue := by
    rw [Option.map_map]
    exact congrArg (Option.map · _) (funext fun value => (hf name value).symm)
  apply eq_ok_of_toOption
  calc (f.decode text').toOption
      = (f.shape.value? d').map f.ofValue := f.toOption_decode hd'
    _ = (f.shape.value? d).map f.ofValue := by rw [hsettle, hsettle, show _ = _ from halike]
    _ = (f.decode text).toOption := (f.toOption_decode hd).symm
    _ = some a := by rw [h]; rfl

/-- If an edit of a record keeps its meaning up to what texts stand for, a document may be edited in this
way any number of times, and is read as the same. -/
theorem Settled.decode_edited {R : Fields → Document → Document → Prop}
    (hR : ∀ {fields : Fields} {d d' : Document} {record name : String}, R fields d d' →
      fields.distinct = true → (Shape.record record fields).Alike canonicalText name d d')
    (hf : f.Settled) (hdistinct : f.shape.distinct = true) {d d' : Document} {text text' : String} {a : α}
    (hd : d.SpelledBy text) (hedits : Relation.EqvGen (Edited R f.shape) d d') (hd' : d'.SpelledBy text')
    (h : f.decode text = .ok a) : f.decode text' = .ok a := by
  have halike : f.shape.Alike canonicalText "" d d' := by
    clear hd hd'
    induction hedits with
    | rel d d' hedit => exact hedit.alike hR hdistinct
    | refl d => exact rfl
    | symm d d' _ ih => exact Eq.symm ih
    | trans d e d' _ _ ih ih' => exact Eq.trans ih ih'
  exact hf.decode_eq_ok hd hd' halike h

end Format

/-! ## All formats of a model -/

theorem TypeName.ofOption_canonicalText (s : Option String) :
    TypeName.ofOption (canonicalText "type" s) = .ofOption s := by
  rw [canonicalText_type]
  rfl

theorem RelationshipKind.ofOption_canonicalText (s : Option String) :
    RelationshipKind.ofOption (canonicalText "type" s) = .ofOption s := by
  rw [canonicalText_type]
  rfl

theorem Visibility.ofOption_canonicalText (s : Option String) :
    Visibility.ofOption (canonicalText "visibility" s) = .ofOption s := by
  rw [canonicalText_visibility]
  exact (Visibility.ofOption s).ofText_text

theorem Parameter.settled : Parameter.format.Settled := by
  rintro - ⟨(name : String), (type : Option String), ⟨⟩⟩
  show (⟨name, .ofOption (canonicalText "type" type)⟩ : Parameter) = ⟨name, .ofOption type⟩
  rw [TypeName.ofOption_canonicalText]

theorem Property.settled : Property.format.Settled := by
  rintro - ⟨(name : String), (type : Option String), (visibility : Option String), ⟨⟩⟩
  show (⟨name, .ofOption (canonicalText "type" type),
    .ofOption (canonicalText "visibility" visibility)⟩ : Property) = ⟨name, .ofOption type, .ofOption visibility⟩
  rw [TypeName.ofOption_canonicalText, Visibility.ofOption_canonicalText]

theorem Method.settled : Method.format.Settled := by
  rintro - ⟨(name : String), (type : Option String), (visibility : Option String),
    (parameters : List Parameter.format.shape.Value), ⟨⟩⟩
  show (⟨name, .ofOption (canonicalText "type" type), .ofOption (canonicalText "visibility" visibility),
    (parameters.map (Parameter.format.shape.settle canonicalText "parameters")).map
      Parameter.format.ofValue⟩ : Method) =
    ⟨name, .ofOption type, .ofOption visibility, parameters.map Parameter.format.ofValue⟩
  rw [TypeName.ofOption_canonicalText, Visibility.ofOption_canonicalText, Parameter.settled.map_ofValue]

theorem Class.settled : Class.format.Settled := by
  rintro - ⟨(key : Key), (name : String), (properties : List Property.format.shape.Value),
    (methods : List Method.format.shape.Value), ⟨⟩⟩
  show (⟨key, name,
    (properties.map (Property.format.shape.settle canonicalText "properties")).map Property.format.ofValue,
    (methods.map (Method.format.shape.settle canonicalText "methods")).map Method.format.ofValue⟩ : Class) =
    ⟨key, name, properties.map Property.format.ofValue, methods.map Method.format.ofValue⟩
  rw [Property.settled.map_ofValue, Method.settled.map_ofValue]

theorem Relationship.settled : Relationship.format.Settled := by
  rintro - ⟨(source : Key), (target : Key), (kind : Option String), (label : Option String),
    (multiplicity : Option String), ⟨⟩⟩
  show (⟨source, target, .ofOption (canonicalText "type" kind), canonicalText "label" label,
    canonicalText "multiplicity" multiplicity⟩ : Relationship) =
    ⟨source, target, .ofOption kind, label, multiplicity⟩
  rw [RelationshipKind.ofOption_canonicalText, canonicalText_of_ne (by decide) (by decide),
    canonicalText_of_ne (by decide) (by decide)]

theorem Model.settled : Model.format.Settled := by
  rintro - ⟨(classes : List Class.format.shape.Value),
    (relationships : List Relationship.format.shape.Value), ⟨⟩⟩
  show (⟨(classes.map (Class.format.shape.settle canonicalText "classes")).map Class.format.ofValue,
    (relationships.map (Relationship.format.shape.settle canonicalText "relationships")).map
      Relationship.format.ofValue⟩ : Model) =
    ⟨classes.map Class.format.ofValue, relationships.map Relationship.format.ofValue⟩
  rw [Class.settled.map_ofValue, Relationship.settled.map_ofValue]

/-! ## Edits that are not seen -/

/-- A value that says of a field that nothing is there. -/
inductive SaysNothing (field : String) : Shape → Document → Prop where
  | null : SaysNothing field .optionalText .null
  | blank (h : field = "type" ∨ field = "visibility") : SaysNothing field .optionalText (.text (some ""))
  | empty {item : Shape} : SaysNothing field (.list item) (.list [])

theorem SaysNothing.map_settle {field : String} {shape : Shape} {d : Document}
    (h : SaysNothing field shape d) :
    shape.empty?.map (shape.settle canonicalText field) =
      (shape.value? d).map (shape.settle canonicalText field) := by
  cases h with
  | null => rfl
  | blank h =>
      show some (canonicalText field none) = some (canonicalText field (some ""))
      rcases h with rfl | rfl
      · rw [canonicalText_type, canonicalText_type]
        rfl
      · rw [canonicalText_visibility, canonicalText_visibility]
        rfl
  | empty => rfl

/-- Objects that differ in one of the ways that reading a model does not see: in the order of the members,
in a member that is not declared, or in a member that says what its absence says. -/
inductive Rearranged (fields : Fields) : Document → Document → Prop where
  | permuted {ms ms' : List (Option String × Document)} (h : ms.Perm ms') :
      Rearranged fields (.object ms) (.object ms')
  | undeclared {key : String} {before after : List (Option String × Document)} (hkey : key ∉ fields.names)
      (d : Document) :
      Rearranged fields (.object (before ++ after)) (.object (before ++ (some key, d) :: after))
  | silent {key : String} {shape : Shape} {d : Document} {before after : List (Option String × Document)}
      (hdeclared : fields.Declares key shape) (habsent : ∀ m ∈ before ++ after, m.1 ≠ some key)
      (h : SaysNothing key shape d) :
      Rearranged fields (.object (before ++ after)) (.object (before ++ (some key, d) :: after))

theorem all_isSome_insert {key : String} {d : Document} (before after : List (Option String × Document)) :
    (before ++ (some key, d) :: after).all (·.1.isSome) = (before ++ after).all (·.1.isSome) := by
  rw [List.all_append, List.all_append, List.all_cons, Option.isSome_some, Bool.true_and]

theorem Rearranged.alike {fields : Fields} {d d' : Document} {record name : String}
    (h : Rearranged fields d d') (hdistinct : fields.distinct = true) :
    (Shape.record record fields).Alike canonicalText name d d' := by
  have hobject {ms ms' : List (Option String × Document)}
      (hkeys : ms.all (·.1.isSome) = ms'.all (·.1.isSome))
      (hsingle : ∀ name shape, fields.Declares name shape →
        (single? shape.empty? shape.value? (named name ms)).map (shape.settle canonicalText name) =
          (single? shape.empty? shape.value? (named name ms')).map (shape.settle canonicalText name)) :
      (Shape.record record fields).Alike canonicalText name (.object ms) (.object ms') := by
    rw [Shape.Alike, Shape.value?_object hdistinct, Shape.value?_object hdistinct]
    show Option.map (fields.settle canonicalText) _ = Option.map (fields.settle canonicalText) _
    rw [Fields.object?, Fields.object?, hkeys]
    split
    · exact fields.map_settle_gather? hsingle
    · rfl
  cases h with
  | permuted h =>
      refine hobject h.all_eq fun name shape _ => ?_
      rw [single?_perm _ _ (named_perm h)]
  | @undeclared key before after hkey d =>
      refine hobject (all_isSome_insert _ _).symm fun name shape hdeclared => ?_
      have hname : key ≠ name := fun heq => hkey (heq ▸ hdeclared.mem_names)
      rw [named_insert_of_ne hname]
  | @silent key shape d before after hdeclared habsent h =>
      refine hobject (all_isSome_insert _ _).symm fun name shape' hdeclared' => ?_
      by_cases hname : key = name
      · subst hname
        cases hdeclared.unique hdeclared' hdistinct
        have hbefore := named_eq_nil fun m hm => habsent m (List.mem_append_left _ hm)
        have hafter := named_eq_nil fun m hm => habsent m (List.mem_append_right _ hm)
        rw [named_append, named_append, named_cons_self, hbefore, hafter]
        exact h.map_settle
      · rw [named_insert_of_ne hname]

/-- Records that differ in how their visibility is spelled. It may be the value of a member, or have its
place in a list. -/
inductive Respelled (fields : Fields) : Document → Document → Prop where
  | member {s s' : String} {before after : List (Option String × Document)}
      (hdeclared : fields.Declares "visibility" .optionalText) (h : Visibility.ofText s = Visibility.ofText s') :
      Respelled fields (.object (before ++ (some "visibility", .text (some s)) :: after))
        (.object (before ++ (some "visibility", .text (some s')) :: after))
  | listed {s s' : String} {before after : List Document}
      (hat : fields.At before.length "visibility" .optionalText)
      (h : Visibility.ofText s = Visibility.ofText s') :
      Respelled fields (.list (before ++ .text (some s) :: after)) (.list (before ++ .text (some s') :: after))

theorem Respelled.alike {fields : Fields} {d d' : Document} {record name : String}
    (h : Respelled fields d d') (hdistinct : fields.distinct = true) :
    (Shape.record record fields).Alike canonicalText name d d' := by
  have htext {s s' : String} (h : Visibility.ofText s = Visibility.ofText s') :
      Shape.optionalText.Alike canonicalText "visibility" (.text (some s)) (.text (some s')) := by
    show some (canonicalText "visibility" _) = some (canonicalText "visibility" _)
    rw [canonicalText_visibility, canonicalText_visibility]
    exact congrArg (fun v => some (some v.text)) h
  cases h with
  | member hdeclared h => exact (htext h).object hdistinct hdeclared _ _
  | listed hat h => exact (htext h).listed hat

namespace Model

/-- **Presentation does not matter.** A text that is read as a model spells a document, and whatever is
rearranged in that document, in any of its objects and any number of times, to and fro, each text that
spells the outcome is read as the same model. -/
theorem decode_rearranged {text : String} {m : Model} (h : decode text = .ok m) :
    (∃ d : Document, d.SpelledBy text) ∧
      ∀ {d d' : Document} {text' : String}, d.SpelledBy text →
        Relation.EqvGen (Edited Rearranged format.shape) d d' → d'.SpelledBy text' →
          decode text' = .ok m := by
  exact ⟨Format.exists_spelledBy h, fun hd hedits hd' =>
    settled.decode_edited Rearranged.alike lawful.distinct hd hedits hd' h⟩

/-- A class with one property, before and after three edits: its key is moved behind its name, the
visibility of the property is left out, and a member that nobody knows comes first. -/
theorem decode_rearranged_dog :
    let property (more : List (String × Tree)) : Tree :=
      .object (("name", .text "age") :: ("type", .text "int") :: more)
    let classes (first second : String × Tree) (property : Tree) : String × Tree :=
      ("classes", .list [.object [first, second, ("properties", .list [property]), ("methods", .list [])]])
    let key : String × Tree := ("key", .integer 1)
    let name : String × Tree := ("name", .text "Dog")
    let visibility : String × Tree := ("visibility", .text "")
    let relationships : String × Tree := ("relationships", .list [])
    let editor : String × Tree := ("editor", .object [("zoom", .integer 2)])
    let m : Model := ⟨[⟨1, "Dog", [⟨"age", ⟨"int"⟩, .ofText ""⟩], []⟩], []⟩
    decode (Tree.object [classes key name (property [visibility]), relationships]).pretty = .ok m ∧
      decode (Tree.object [editor, classes name key (property []), relationships]).compact = .ok m := by
  intro property classes key name visibility relationships editor m
  have hdog : decode (Tree.object [classes key name (property [visibility]), relationships]).pretty = .ok m :=
    decode_pretty m
  have hswap : Edited Rearranged format.shape
      (Tree.object [classes key name (property [visibility]), relationships]).document
      (Tree.object [classes name key (property [visibility]), relationships]).document :=
    @Edited.member _ _ _ _ _ _ _ [] _ .head <| @Edited.item _ _ _ _ [] [] <| .record (.permuted (.swap ..))
  have hvisibility : Edited Rearranged format.shape
      (Tree.object [classes name key (property []), relationships]).document
      (Tree.object [classes name key (property [visibility]), relationships]).document :=
    @Edited.member _ _ _ _ _ _ _ [] _ .head <| @Edited.item _ _ _ _ [] [] <|
      @Edited.member _ _ _ _ _ _ _ [_, _] _ (.tail (.tail .head)) <| @Edited.item _ _ _ _ [] [] <|
        .record (@Rearranged.silent _ _ _ _ [_, _] [] (.tail (.tail .head)) (by simp) (.blank (.inr rfl)))
  have heditor : Edited Rearranged format.shape
      (Tree.object [classes name key (property []), relationships]).document
      (Tree.object [editor, classes name key (property []), relationships]).document :=
    .record (@Rearranged.undeclared _ _ [] _ (by decide) _)
  have hedits : Relation.EqvGen (Edited Rearranged format.shape)
      (Tree.object [classes key name (property [visibility]), relationships]).document
      (Tree.object [editor, classes name key (property []), relationships]).document :=
    .trans _ _ _ (.rel _ _ hswap) (.trans _ _ _ (.symm _ _ (.rel _ _ hvisibility)) (.rel _ _ heditor))
  exact ⟨hdog, (decode_rearranged hdog).2 (Tree.spelledBy_pretty _) hedits (Tree.spelledBy_compact _)⟩

end Model

end UmlSkeleton

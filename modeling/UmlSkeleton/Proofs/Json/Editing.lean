import UmlSkeleton.Proofs.Json.Objects

/-!
# Edits of a document

`Edited R` says that two documents differ by one edit of one part that is read as a record, at any
depth: the record may stand in a list, be the value of a declared field, or both several times over. `R`
says which edits of the record are meant.

What an edit does to the meaning of the whole document follows from what it does to the record.
`Edited.alike` is about edits that keep the meaning, up to what the texts of optional fields stand for;
`Edited.value?_eq_none` about those that spoil it.
-/

namespace UmlSkeleton.Json

/-! ## Places in records -/

/-- The field at this index of a record, by its name and its shape. -/
inductive Fields.At : Fields → Nat → String → Shape → Prop where
  | head {name : String} {shape : Shape} {rest : Fields} : At (.cons name shape rest) 0 name shape
  | tail {i : Nat} {name other : String} {shape otherShape : Shape} {rest : Fields}
      (h : rest.At i name shape) : At (.cons other otherShape rest) (i + 1) name shape

theorem Fields.At.declares {fields : Fields} {i : Nat} {name : String} {shape : Shape}
    (h : fields.At i name shape) : fields.Declares name shape := by
  induction h with
  | head => exact .head
  | tail _ ih => exact .tail ih

/-- Records without repeated fields have one shape for each name. -/
theorem Fields.Declares.unique {fields : Fields} {name : String} {shape shape' : Shape}
    (h : fields.Declares name shape) (h' : fields.Declares name shape') (hdistinct : fields.distinct = true) :
    shape = shape' := by
  induction h with
  | head =>
      cases h' with
      | head => rfl
      | tail h' => exact absurd h'.mem_names (Fields.distinct_cons hdistinct).1
  | tail h ih =>
      cases h' with
      | head => exact absurd h.mem_names (Fields.distinct_cons hdistinct).1
      | tail h' => exact ih h' (Fields.distinct_cons hdistinct).2.2

/-! ## One edit at one place -/

/-- One record of the document is edited as `R` says. -/
inductive Edited (R : Fields → Document → Document → Prop) : Shape → Document → Document → Prop where
  /-- The document is the record. -/
  | record {name : String} {fields : Fields} {d d' : Document} (h : R fields d d') :
      Edited R (.record name fields) d d'
  /-- The record is inside of an item of a list. -/
  | item {shape : Shape} {d d' : Document} {before after : List Document} (h : Edited R shape d d') :
      Edited R (.list shape) (.list (before ++ d :: after)) (.list (before ++ d' :: after))
  /-- The record is inside of the value of a declared field. -/
  | member {name key : String} {fields : Fields} {shape : Shape} {d d' : Document}
      {before after : List (Option String × Document)} (hdeclared : fields.Declares key shape)
      (h : Edited R shape d d') :
      Edited R (.record name fields) (.object (before ++ (some key, d) :: after))
        (.object (before ++ (some key, d') :: after))
  /-- The record is inside of one that is written as a list. -/
  | listed {name key : String} {fields : Fields} {shape : Shape} {d d' : Document}
      {before after : List Document} (hat : fields.At before.length key shape) (h : Edited R shape d d') :
      Edited R (.record name fields) (.list (before ++ d :: after)) (.list (before ++ d' :: after))

variable {R : Fields → Document → Document → Prop}

/-! ## What texts stand for -/

mutual

/-- A value with each optional text replaced by what it stands for, which may depend on the name of the
field. -/
def Shape.settle (canon : String → Option String → Option String) (name : String) :
    (shape : Shape) → shape.Value → shape.Value
  | .integer, value => value
  | .text, value => value
  | .optionalText, value => canon name value
  | .list item, values => List.map (item.settle canon name) values
  | .record _ fields, values => fields.settle canon values

def Fields.settle (canon : String → Option String → Option String) :
    (fields : Fields) → fields.Values → fields.Values
  | .nil, () => ()
  | .cons name shape rest, (value, values) => (shape.settle canon name value, rest.settle canon values)

end

/-- Two documents mean the same under a name, up to what optional texts stand for, or both mean
nothing. -/
def Shape.Alike (canon : String → Option String → Option String) (name : String) (shape : Shape)
    (d d' : Document) : Prop :=
  (shape.value? d).map (shape.settle canon name) = (shape.value? d').map (shape.settle canon name)

section
variable {canon : String → Option String → Option String} {name : String} {shape : Shape} {d d' : Document}

/-! ## Edits that keep the meaning -/

theorem map_mapM {α : Type} {value : Document → Option α} {f : α → α} (ds : List Document) :
    (ds.mapM value).map (List.map f) = ds.mapM fun d => (value d).map f := by
  induction ds with
  | nil => rfl
  | cons d ds ih =>
      rw [List.mapM_cons, List.mapM_cons, ← ih]
      cases value d with
      | none => rfl
      | some a => cases ds.mapM value <;> rfl

/-- One item is as good as another of the same meaning. -/
theorem Shape.Alike.list (h : shape.Alike canon name d d') (before after : List Document) :
    (Shape.list shape).Alike canon name (.list (before ++ d :: after)) (.list (before ++ d' :: after)) := by
  show ((before ++ d :: after).mapM shape.value?).map (List.map (shape.settle canon name)) =
    ((before ++ d' :: after).mapM shape.value?).map (List.map (shape.settle canon name))
  have h : (shape.value? d).map (shape.settle canon name) = (shape.value? d').map (shape.settle canon name) := h
  rw [map_mapM, map_mapM, List.mapM_append, List.mapM_append, List.mapM_cons, List.mapM_cons, h]

theorem map_bind_pair {α β : Type} {x : Option α} {y : Option β} {f : α → α} {g : β → β} :
    (x.bind fun a => y.map (a, ·)).map (fun (a, b) => (f a, g b)) =
      (x.map f).bind fun a => (y.map g).map (a, ·) := by
  cases x with
  | none => rfl
  | some a => cases y <;> rfl

/-- Objects mean the same if their members do, field by field. -/
theorem Fields.map_settle_gather? {ms ms' : List (Option String × Document)} : (fields : Fields) →
    (∀ name shape, fields.Declares name shape →
      (single? shape.empty? shape.value? (named name ms)).map (shape.settle canon name) =
        (single? shape.empty? shape.value? (named name ms')).map (shape.settle canon name)) →
    (fields.gather? ms).map (fields.settle canon) = (fields.gather? ms').map (fields.settle canon)
  | .nil, _ => rfl
  | .cons name shape rest, h => by
      have hrest := rest.map_settle_gather? fun name shape hdeclared => h name shape (.tail hdeclared)
      refine map_bind_pair.trans ?_
      rw [h name shape .head, hrest]
      exact map_bind_pair.symm

/-- Among the members of one name, one is as good as another of the same meaning. -/
theorem Shape.Alike.single? (h : shape.Alike canon name d d') (empty : Option shape.Value)
    (ds es : List Document) :
    (single? empty shape.value? (ds ++ d :: es)).map (shape.settle canon name) =
      (single? empty shape.value? (ds ++ d' :: es)).map (shape.settle canon name) := by
  match ds, es with
  | [], [] => exact h
  | [], _ :: _ => rfl
  | [_], _ => rfl
  | _ :: _ :: _, _ => rfl

theorem Shape.Alike.object {fields : Fields} {record key : String} (hdistinct : fields.distinct = true)
    (hdeclared : fields.Declares key shape) (h : shape.Alike canon key d d')
    (before after : List (Option String × Document)) :
    (Shape.record record fields).Alike canon name (.object (before ++ (some key, d) :: after))
      (.object (before ++ (some key, d') :: after)) := by
  rw [Shape.Alike, Shape.value?_object hdistinct, Shape.value?_object hdistinct]
  show Option.map (fields.settle canon) _ = Option.map (fields.settle canon) _
  rw [Fields.object?, Fields.object?]
  have hkeys : (before ++ (some key, d) :: after).all (·.1.isSome) =
      (before ++ (some key, d') :: after).all (·.1.isSome) := by
    rw [List.all_append, List.all_append]
    rfl
  rw [hkeys]
  split
  · refine fields.map_settle_gather? fun name shape' hdeclared' => ?_
    by_cases hname : key = name
    · subst hname
      cases hdeclared.unique hdeclared' hdistinct
      rw [named_append, named_append, named_cons_self, named_cons_self]
      exact h.single? _ _ _
    · rw [named_insert_of_ne hname, named_insert_of_ne hname]
  · rfl

theorem map_itemAnd? {α β : Type} {empty : Option α} {value : Document → Option α}
    {others : List Document → Option β} {f : α → α} {g : β → β} (ds : List Document) :
    (itemAnd? empty value others (d :: ds)).map (fun (a, b) => (f a, g b)) =
      ((value d).map f).bind fun a => ((others ds).map g).map (a, ·) := by
  show Option.map _ (Option.bind (value d) fun a => Option.bind (others ds) fun b => some (a, b)) = _
  cases value d with
  | none => rfl
  | some a => cases others ds <;> rfl

theorem Shape.Alike.listed {fields : Fields} {record key : String} {after before : List Document}
    (hat : fields.At before.length key shape) (h : shape.Alike canon key d d') :
    (Shape.record record fields).Alike canon name (.list (before ++ d :: after))
      (.list (before ++ d' :: after)) := by
  show (fields.listed? (before ++ d :: after)).map (fields.settle canon) =
    (fields.listed? (before ++ d' :: after)).map (fields.settle canon)
  induction before generalizing fields with
  | nil =>
      cases hat with
      | head =>
          refine (map_itemAnd? after).trans (Eq.trans ?_ (map_itemAnd? after).symm)
          exact congrArg (Option.bind · _) h
  | cons e before ih =>
      cases hat with
      | tail hat =>
          rw [List.cons_append, List.cons_append]
          refine (map_itemAnd? _).trans (Eq.trans ?_ (map_itemAnd? _).symm)
          rw [ih hat]

/-- Edits that keep the meaning of records keep that of whole documents. -/
theorem Edited.alike
    (hR : ∀ {fields : Fields} {d d' : Document} {record name : String}, R fields d d' →
      fields.distinct = true → (Shape.record record fields).Alike canon name d d')
    (h : Edited R shape d d') (hdistinct : shape.distinct = true) : shape.Alike canon name d d' := by
  induction h generalizing name with
  | record h => exact hR h hdistinct
  | item _ ih => exact (ih hdistinct).list _ _
  | member hdeclared _ ih => exact (ih (hdeclared.distinct hdistinct)).object hdistinct hdeclared _ _
  | listed hat _ ih => exact (ih (hat.declares.distinct hdistinct)).listed hat

end

/-! ## Edits that spoil it -/

section
variable {shape : Shape} {fields : Fields} {key : String} {d d' : Document}

/-- A list of items means nothing if one of them does. -/
theorem isSome_of_mapM {α : Type} {value : Document → Option α} {ds : List Document} (hd : d ∈ ds)
    (h : (ds.mapM value).isSome) : (value d).isSome := by
  induction ds with
  | nil => cases hd
  | cons e ds ih =>
      rw [List.mapM_cons] at h
      obtain ⟨values, hvalues⟩ := Option.isSome_iff_exists.mp h
      obtain ⟨value, hvalue, hmore⟩ := Option.bind_eq_some_iff.mp hvalues
      obtain ⟨more, hmore, -⟩ := Option.bind_eq_some_iff.mp hmore
      rcases List.mem_cons.mp hd with rfl | hd
      · exact Option.isSome_of_eq_some hvalue
      · exact ih hd (Option.isSome_of_eq_some hmore)

theorem isSome_gather?_of_object? {ms : List (Option String × Document)} (h : (fields.object? ms).isSome) :
    (fields.gather? ms).isSome := by
  rw [Fields.object?] at h
  split at h
  · exact h
  · cases h

/-- An object means nothing if one of its declared members does, or if there are two of one name. -/
theorem named_eq_of_object? {ms : List (Option String × Document)} (hdeclared : fields.Declares key shape)
    (hd : (some key, d) ∈ ms) (h : (fields.object? ms).isSome) :
    named key ms = [d] ∧ (shape.value? d).isSome := by
  have hsingle := Fields.isSome_single? hdeclared (isSome_gather?_of_object? h)
  have hmem := mem_named hd
  match hnamed : named key ms with
  | [] => rw [hnamed] at hmem; cases hmem
  | [e] =>
      rw [hnamed] at hmem hsingle
      cases List.mem_singleton.mp hmem
      exact ⟨rfl, hsingle⟩
  | _ :: _ :: _ => rw [hnamed] at hsingle; cases hsingle

theorem isSome_of_listed? {before after : List Document} (hat : fields.At before.length key shape)
    (h : (fields.listed? (before ++ d :: after)).isSome) : (shape.value? d).isSome := by
  obtain ⟨values, hvalues⟩ := Option.isSome_iff_exists.mp h
  clear h
  induction before generalizing fields with
  | nil =>
      cases hat with
      | head =>
          obtain ⟨value, hvalue, -⟩ := Option.bind_eq_some_iff.mp hvalues
          exact Option.isSome_of_eq_some hvalue
  | cons e before ih =>
      cases hat with
      | tail hat =>
          obtain ⟨value, -, hmore⟩ := Option.bind_eq_some_iff.mp hvalues
          obtain ⟨more, hmore, -⟩ := Option.bind_eq_some_iff.mp hmore
          exact ih hat more hmore

theorem eq_none_of_imp {α β : Type} {x : Option α} {y : Option β} (h : x.isSome → y.isSome)
    (hy : y = none) : x = none := by
  cases x with
  | none => rfl
  | some a =>
      rw [hy] at h
      cases h rfl

/-- Edits that spoil records spoil whole documents. -/
theorem Edited.value?_eq_none
    (hR : ∀ {fields : Fields} {d d' : Document} {record : String}, R fields d d' → fields.distinct = true →
      ((Shape.record record fields).value? d).isSome → (Shape.record record fields).value? d' = none)
    (h : Edited R shape d d') (hdistinct : shape.distinct = true) (hd : (shape.value? d).isSome) :
    shape.value? d' = none := by
  induction h with
  | record h => exact hR h hdistinct hd
  | @item shape d d' before after _ ih =>
      have hmem (e : Document) : e ∈ before ++ e :: after := by simp
      exact eq_none_of_imp (isSome_of_mapM (hmem d')) (ih hdistinct (isSome_of_mapM (hmem d) hd))
  | @member name key fields shape d d' before after hdeclared _ ih =>
      have hmem (e : Document) : (some key, e) ∈ before ++ (some key, e) :: after := by simp
      rw [Shape.value?_object hdistinct] at hd ⊢
      refine eq_none_of_imp (fun h => (named_eq_of_object? hdeclared (hmem d') h).2) ?_
      exact ih (hdeclared.distinct hdistinct) (named_eq_of_object? hdeclared (hmem d) hd).2
  | listed hat _ ih =>
      refine eq_none_of_imp (isSome_of_listed? hat) ?_
      exact ih (hat.declares.distinct hdistinct) (isSome_of_listed? hat hd)

end

end UmlSkeleton.Json

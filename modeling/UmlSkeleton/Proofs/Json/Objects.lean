import UmlSkeleton.Proofs.Json.RoundTrip

/-!
# Records in objects, field by field

`Shape.value?` follows the members of an object in the order in which they stand. If no two fields of the
record have one name, it does not matter in which order that is: `Shape.value?_object` says what the object
means by asking, for each field on its own, for the members that have its name. There may be one, whose
value is that of the field, or none if the field has an empty value (`single?`). All other members are
ignored, as long as their keys are texts.
-/

namespace UmlSkeleton.Json

/-! ## Declared fields -/

/-- A record has a field of this name, and this is its shape. -/
inductive Fields.Declares : Fields → String → Shape → Prop where
  | head {name : String} {shape : Shape} {rest : Fields} : Declares (.cons name shape rest) name shape
  | tail {name other : String} {shape otherShape : Shape} {rest : Fields}
      (h : rest.Declares name shape) : Declares (.cons other otherShape rest) name shape

section
variable {fields rest : Fields} {name : String} {shape : Shape}

theorem Fields.Declares.mem_names (h : fields.Declares name shape) : name ∈ fields.names := by
  induction h with
  | head => exact List.mem_cons_self ..
  | tail _ ih => exact List.mem_cons_of_mem _ ih

theorem Fields.distinct_cons (h : (Fields.cons name shape rest).distinct = true) :
    name ∉ rest.names ∧ shape.distinct = true ∧ rest.distinct = true := by
  rw [Fields.distinct, Bool.and_eq_true, Bool.and_eq_true, Bool.not_eq_true', List.contains_eq_mem,
    decide_eq_false_iff_not] at h
  exact ⟨h.1.1, h.1.2, h.2⟩

theorem Fields.Declares.distinct (h : fields.Declares name shape) (hfields : fields.distinct = true) :
    shape.distinct = true := by
  induction h with
  | head => exact (Fields.distinct_cons hfields).2.1
  | tail _ ih => exact ih (Fields.distinct_cons hfields).2.2

end

/-! ## Members of one name -/

/-- The values of all members of this name. -/
def named (name : String) (ms : List (Option String × Document)) : List Document :=
  (ms.filter (·.1 = some name)).map (·.2)

/-- What the members of one name say together. There may be one of them, and none if that says
something too. -/
def single? (empty : Option α) (value : Document → Option α) : List Document → Option α
  | [] => empty
  | [d] => value d
  | _ :: _ :: _ => none

section
variable {name key : String} {d : Document} {ms ms' before after : List (Option String × Document)}

theorem named_append : named name (ms ++ ms') = named name ms ++ named name ms' := by
  simp [named]

theorem named_cons_self : named name ((some name, d) :: ms) = d :: named name ms := by
  simp [named]

theorem named_cons_of_ne (h : key ≠ name) : named name ((some key, d) :: ms) = named name ms := by
  simp [named, h]

theorem named_eq_nil (h : ∀ m ∈ ms, m.1 ≠ some name) : named name ms = [] := by
  simpa [named] using h

theorem mem_named (h : (some name, d) ∈ ms) : d ∈ named name ms :=
  List.mem_map.mpr ⟨_, List.mem_filter.mpr ⟨h, by simp⟩, rfl⟩

/-- A member of another name makes no difference. -/
theorem named_insert_of_ne (h : key ≠ name) :
    named name (before ++ (some key, d) :: after) = named name (before ++ after) := by
  rw [named_append, named_cons_of_ne h, named_append]

theorem named_perm (h : ms.Perm ms') : (named name ms).Perm (named name ms') := (h.filter _).map _

/-- Members of one name may be listed in any order, since more than one say nothing. -/
theorem single?_perm {ds ds' : List Document} (empty : Option α) (value : Document → Option α)
    (h : ds.Perm ds') : single? empty value ds = single? empty value ds' := by
  match ds, ds', h with
  | [], ds', h => rw [List.nil_perm.mp h]
  | [d], ds', h => rw [List.singleton_perm.mp h]
  | _ :: _ :: _, [], h => exact absurd h.length_eq (by simp)
  | _ :: _ :: _, [_], h => exact absurd h.length_eq (by simp)
  | _ :: _ :: _, _ :: _ :: _, _ => rfl

end

/-! ## Slots, filled one by one -/

/-- Fill a slot with one value after the other, of which only the first finds it vacant. -/
def fillSlot (value : Document → Option α) (slot : Option α) (ds : List Document) : Option (Option α) :=
  ds.foldlM (fun slot d => match slot with
    | some _ => none
    | none => (value d).map some) slot

/-- A slot that was vacant is filled by the members of one name together. -/
theorem single?_eq_fillSlot (empty : Option α) (value : Document → Option α) (ds : List Document) :
    single? empty value ds = (fillSlot value none ds).bind (· <|> empty) := by
  match ds with
  | [] => rfl
  | [d] =>
      show value d = (((value d).map some).bind some).bind (· <|> empty)
      cases value d <;> rfl
  | d :: e :: ds =>
      show none = Option.bind (Option.bind ((value d).map some) _) _
      cases value d <;> rfl

/-- The slot of one field is filled by the members of its name, the other slots by the others. -/
theorem foldlM_noteField_eq {name : String} {value : Document → Option α}
    {others : String → σ → Document → Option σ} (ms : List (Option String × Document)) (slot : Option α)
    (slots : σ) :
    ms.foldlM (noteMember (noteField name value others)) (slot, slots) =
      (fillSlot value slot (named name ms)).bind fun slot =>
        ((ms.filter (·.1 ≠ some name)).foldlM (noteMember others) slots).map (slot, ·) := by
  induction ms generalizing slot slots with
  | nil => rfl
  | cons m ms ih =>
      obtain ⟨key?, d⟩ := m
      rw [List.foldlM_cons]
      cases key? with
      | none =>
          -- A key without a text stops both.
          rw [List.filter_cons_of_pos (by simp), List.foldlM_cons]
          show none = Option.bind (fillSlot value slot (named name ms)) fun _ => none
          cases fillSlot value slot (named name ms) <;> rfl
      | some key =>
          show (noteField name value others key (slot, slots) d).bind _ = _
          by_cases hkey : key = name
          · subst hkey
            rw [named_cons_self, List.filter_cons_of_neg (by simp), noteField, if_pos rfl, fillSlot,
              List.foldlM_cons]
            cases slot with
            | some a => rfl
            | none =>
                show Option.bind ((value d).map fun a => (some a, slots)) _ =
                  Option.bind (Option.bind ((value d).map some) _) _
                cases value d with
                | none => rfl
                | some a => exact ih (some a) slots
          · rw [named_cons_of_ne hkey, List.filter_cons_of_pos (by simpa using hkey), noteField,
              if_neg hkey, List.foldlM_cons]
            show Option.bind ((others key slots d).map (slot, ·)) _ =
              Option.bind _ fun slot => Option.map _ (Option.bind (others key slots d) _)
            cases others key slots d with
            | none => cases fillSlot value slot (named name ms) <;> rfl
            | some slots' => exact ih slot slots'

theorem Fields.note?_of_notMem : (fields : Fields) → {name : String} → name ∉ fields.names →
    ∀ (slots : fields.Slots) (d : Document), fields.note? name slots d = some slots
  | .nil, _, _, (), _ => rfl
  | .cons other shape rest, name, h, (slot, slots), d => by
      rw [Fields.names, List.mem_cons, not_or] at h
      rw [Fields.note?, noteField, if_neg h.1, rest.note?_of_notMem h.2]
      rfl

/-- Members of a name that no field has are passed by. -/
theorem Fields.foldlM_note?_filter {fields : Fields} {name : String} (h : name ∉ fields.names)
    (ms : List (Option String × Document)) (slots : fields.Slots) :
    (ms.filter (·.1 ≠ some name)).foldlM (noteMember fields.note?) slots =
      ms.foldlM (noteMember fields.note?) slots := by
  induction ms generalizing slots with
  | nil => rfl
  | cons m ms ih =>
      by_cases hm : m.1 = some name
      · have hnote : noteMember fields.note? slots m = some slots := by
          rw [noteMember, hm]
          exact fields.note?_of_notMem h slots m.2
        rw [List.filter_cons_of_neg (by simpa using hm), List.foldlM_cons, hnote, ih]
        rfl
      · rw [List.filter_cons_of_pos (by simpa using hm), List.foldlM_cons, List.foldlM_cons]
        exact congrArg _ (funext fun slots => ih slots)

/-! ## What an object means -/

/-- The values of all fields, each from the members of its name. -/
def Fields.gather? : (fields : Fields) → List (Option String × Document) → Option fields.Values
  | .nil, _ => some ()
  | .cons name shape rest, ms =>
    (single? shape.empty? shape.value? (named name ms)).bind fun value =>
      (rest.gather? ms).map (value, ·)

/-- What an object means to a record. All keys have to be texts. -/
def Fields.object? (fields : Fields) (ms : List (Option String × Document)) : Option fields.Values :=
  if ms.all (·.1.isSome) then fields.gather? ms else none

/-- The slots of a record are complete if the first is and the others are. -/
theorem Fields.complete_cons {name : String} {shape : Shape} {rest : Fields} (slot : Option shape.Value)
    (found : Option rest.Slots) :
    (found.map fun slots => (slot, slots)).bind
        (fun slots => ((Fields.cons name shape rest).complete slots).toOption) =
      (slot <|> shape.empty?).bind fun value =>
        (found.bind fun slots => (rest.complete slots).toOption).map (value, ·) := by
  cases found with
  | none => cases slot <|> shape.empty? <;> rfl
  | some slots =>
      show ((Fields.cons name shape rest).complete (slot, slots)).toOption = _
      rw [Fields.complete]
      cases slot <|> shape.empty? with
      | none => rfl
      | some value =>
          show ((rest.complete slots).map (value, ·)).toOption = (rest.complete slots).toOption.map (value, ·)
          cases rest.complete slots <;> rfl

/-- Filling the slots along the members and completing them gives the value of each field. -/
theorem Fields.fill_and_complete : (fields : Fields) → fields.distinct = true →
    (ms : List (Option String × Document)) →
    (ms.foldlM (noteMember fields.note?) fields.vacant).bind (fun slots => (fields.complete slots).toOption) =
      fields.object? ms
  | .nil, _, ms => by
      induction ms with
      | nil => rfl
      | cons m ms ih =>
          obtain ⟨_ | key, d⟩ := m
          · rfl
          · exact ih
  | .cons name shape rest, h, ms => by
      obtain ⟨hname, -, hrest⟩ := Fields.distinct_cons h
      have hothers := rest.fill_and_complete hrest ms
      have hfold : ms.foldlM (noteMember (Fields.cons name shape rest).note?)
          (Fields.cons name shape rest).vacant =
            (fillSlot shape.value? none (named name ms)).bind fun slot =>
              (ms.foldlM (noteMember rest.note?) rest.vacant).map (slot, ·) := by
        rw [← Fields.foldlM_note?_filter hname]
        exact foldlM_noteField_eq ms none rest.vacant
      rw [Fields.object?] at hothers ⊢
      rw [hfold, Fields.gather?, single?_eq_fillSlot]
      cases fillSlot shape.value? none (named name ms) with
      | none => exact (ite_self none).symm
      | some slot =>
          rw [Option.bind_some, Option.bind_some]
          refine (Fields.complete_cons slot _).trans ?_
          rw [hothers]
          cases slot <|> shape.empty? with
          | none => exact (ite_self none).symm
          | some value =>
              by_cases hkeys : ms.all (·.1.isSome) = true
              · rw [if_pos hkeys, if_pos hkeys]
                rfl
              · rw [if_neg hkeys, if_neg hkeys]
                rfl

/-- What an object means to a record without repeated fields. -/
theorem Shape.value?_object {name : String} {fields : Fields} (h : fields.distinct = true)
    (ms : List (Option String × Document)) :
    (Shape.record name fields).value? (.object ms) = fields.object? ms :=
  fields.fill_and_complete h ms

/-! ## Each field on its own -/

section
variable {fields : Fields} {ms : List (Option String × Document)}

/-- An object that means something to a record means something to each of its fields. -/
theorem Fields.isSome_single? {name : String} {shape : Shape} (hdeclared : fields.Declares name shape)
    (h : (fields.gather? ms).isSome) : (single? shape.empty? shape.value? (named name ms)).isSome := by
  induction hdeclared with
  | head => exact Option.isSome_of_isSome_bind h
  | tail _ ih =>
      obtain ⟨values, hvalues⟩ := Option.isSome_iff_exists.mp h
      obtain ⟨value, -, hrest⟩ := Option.bind_eq_some_iff.mp hvalues
      exact ih (Option.isSome_map .. ▸ Option.isSome_of_eq_some hrest)

end

end UmlSkeleton.Json

import UmlSkeleton.Proofs.Json.Meaning
import UmlSkeleton.Proofs.Json.Writing

/-!
# Written values are read back

The tree of a value means that value to its shape, if no record of the shape has two fields of one
name (`Shape.value?_tree`). Together with what readers find and what writers spell this gives the round
trip through text, in both ways of writing.

A field that is left out because it is absent comes back because its shape has an empty value. A member
that is written fills the slot of its own field, which is still vacant, and passes all others by.
-/

namespace UmlSkeleton.Json

/-! ## Shapes without repeated fields -/

def Fields.names : Fields → List String
  | .nil => []
  | .cons name _ rest => name :: rest.names

mutual

/-- No record in the shape has two fields of one name. -/
def Shape.distinct : Shape → Bool
  | .integer => true
  | .text => true
  | .optionalText => true
  | .list item => item.distinct
  | .record _ fields => fields.distinct

def Fields.distinct : Fields → Bool
  | .nil => true
  | .cons name shape rest => !rest.names.contains name && shape.distinct && rest.distinct

end

/-! ## Integers -/

namespace Numeral

theorem le_ofDigitChars (ds : List Char) (w : Nat) : w ≤ Nat.ofDigitChars 10 ds w := by
  induction ds generalizing w with
  | nil => simp
  | cons d ds ih =>
      rw [Nat.ofDigitChars_cons]
      exact Nat.le_trans (by omega) (ih _)

/-- As long as the digits stand for a machine word, none of them is lost. -/
theorem foldl_pushWhole {ds : List Char} {w : Nat} (h : Nat.ofDigitChars 10 ds w ≤ maxWord) :
    ds.foldl Scaled.pushWhole ⟨w, 0, false⟩ = ⟨Nat.ofDigitChars 10 ds w, 0, false⟩ := by
  induction ds generalizing w with
  | nil => simp
  | cons d ds ih =>
      rw [Nat.ofDigitChars_cons] at h ⊢
      have hle := le_ofDigitChars ds (10 * w + (d.toNat - '0'.toNat))
      -- The digits so far are no more than all digits, so this one still fits.
      have hpush : Scaled.pushWhole ⟨w, 0, false⟩ d = ⟨10 * w + (d.toNat - '0'.toNat), 0, false⟩ := by
        unfold Scaled.pushWhole digitValue
        rw [Nat.mul_comm 10 w] at *
        simp only [Bool.false_eq_true, if_false]
        rw [if_pos (Nat.le_trans hle h)]
      rw [List.foldl_cons, hpush, ih h]

theorem wholePart_ofInt {n : Int} (h : n.natAbs ≤ maxWord) :
    (ofInt n).wholePart = ⟨n.natAbs, 0, false⟩ := by
  have hdigits := Nat.ofDigitChars_ten_toDigits (n := n.natAbs)
  rw [wholePart, ofInt, foldl_pushWhole (by rw [hdigits]; exact h), hdigits]

theorem number_ofInt {n : Int} (hmin : -0x8000000000000000 ≤ n) (hmax : n < 0x8000000000000000) :
    (ofInt n).number = .ok (.integer n) := by
  have hwhole : (ofInt n).wholePart = ⟨n.natAbs, 0, false⟩ :=
    wholePart_ofInt (by unfold maxWord UInt64.size; omega)
  show wholeNumber (n < 0) (ofInt n).wholePart = _
  rw [hwhole, wholeNumber]
  by_cases hn : n < 0
  · have hword : ¬ (n.natAbs = 0 ∨ 0x8000000000000000 < n.natAbs) := by omega
    simp only [hn, decide_true, Bool.not_true, Bool.false_eq_true, if_false, if_neg hword]
    rw [← Int.eq_neg_natAbs_of_nonpos (by omega)]
  · simp only [hn, decide_false, Bool.not_false, Bool.false_eq_true, if_false, if_true]
    rw [Int.natAbs_of_nonneg (by omega)]

/-- An integer of 64 bits is read as it was written. -/
theorem int64?_ofInt (n : Int64) : (ofInt n.toInt).int64? = some n := by
  rw [int64?, number_ofInt n.le_toInt n.toInt_lt]
  show (if n.toInt ≤ Int64.maxValue.toInt then some (Int64.ofInt n.toInt) else none) = some n
  rw [if_pos n.toInt_le, Int64.ofInt_toInt]

end Numeral

/-! ## Lists -/

theorem documents_eq_map (ts : List Tree) : Tree.documents ts = ts.map Tree.document := by
  induction ts with
  | nil => rfl
  | cons t ts ih => rw [Tree.documents, ih, List.map_cons]

theorem memberDocuments_eq_map (ms : List (String × Tree)) :
    Tree.memberDocuments ms = ms.map fun (key, t) => (some key, t.document) := by
  induction ms with
  | nil => rfl
  | cons m ms ih => rw [Tree.memberDocuments, ih, List.map_cons]

/-- If the trees of items mean the items, the tree of a list of them means the list. -/
theorem list?_documents {value : Document → Option α} {tree : α → Tree}
    (h : ∀ a, value (tree a).document = some a) (items : List α) :
    (Document.list (Tree.documents (items.map tree))).list? value = some items := by
  show (Tree.documents (items.map tree)).mapM value = some items
  rw [documents_eq_map, List.map_map]
  induction items with
  | nil => rfl
  | cons a items ih =>
      rw [List.map_cons, List.mapM_cons, ih, Function.comp_apply, h]
      rfl

/-! ## Records -/

/-- Members of other names pass a field by. -/
theorem foldlM_noteField {name : String} {value : Document → Option α}
    {others : String → σ → Document → Option σ} {ms : List (Option String × Document)}
    (h : ∀ m ∈ ms, m.1 ≠ some name) (slot : Option α) (slots : σ) :
    ms.foldlM (noteMember (noteField name value others)) (slot, slots) =
      (ms.foldlM (noteMember others) slots).map (slot, ·) := by
  induction ms generalizing slots with
  | nil => rfl
  | cons m ms ih =>
      obtain ⟨key?, d⟩ := m
      have hmore : ∀ m ∈ ms, m.1 ≠ some name := fun m hm => h m (List.mem_cons_of_mem _ hm)
      rw [List.foldlM_cons, List.foldlM_cons]
      cases key? with
      | none => rfl
      | some key =>
          have hkey : key ≠ name := fun heq => h _ (List.mem_cons_self ..) (congrArg some heq)
          show (noteField name value others key (slot, slots) d).bind _ = Option.map _ ((others key slots d).bind _)
          rw [noteField, if_neg hkey]
          cases hnote : others key slots d with
          | none => rfl
          | some slots' => exact ih hmore slots'

theorem mem_names_of_mem_members : (fields : Fields) → (values : fields.Values) →
    ∀ m ∈ fields.members values, m.1 ∈ fields.names
  | .nil, _, m, hm => by cases hm
  | .cons name shape rest, (value, values), m, hm => by
      rw [Fields.members] at hm
      split at hm
      · exact List.mem_cons_of_mem _ (mem_names_of_mem_members rest values m hm)
      · rcases List.mem_cons.mp hm with rfl | hm
        · exact List.mem_cons_self ..
        · exact List.mem_cons_of_mem _ (mem_names_of_mem_members rest values m hm)

/-- What is absent is what a vacant slot stands for. -/
theorem empty?_of_isAbsent {shape : Shape} {value : shape.Value} (h : shape.isAbsent value = true) :
    shape.empty? = some value := by
  cases shape with
  | optionalText =>
      cases value with
      | none => rfl
      | some s => cases h
  | _ => cases h

theorem record?_object {fields : Fields} {ms : List (Option String × Document)} {slots : fields.Slots}
    {values : fields.Values} (items : List Document → Option fields.Values)
    (hslots : ms.foldlM (noteMember fields.note?) fields.vacant = some slots)
    (hcomplete : fields.complete slots = .ok values) :
    (Document.object ms).record? (fun ms => do
      (fields.complete (← ms.foldlM (noteMember fields.note?) fields.vacant)).toOption) items =
        some values := by
  show Option.bind (ms.foldlM (noteMember fields.note?) fields.vacant) _ = some values
  rw [hslots, Option.bind_some, hcomplete]
  rfl

mutual

/-- The tree of a value means that value. -/
theorem Shape.value?_tree : (shape : Shape) → shape.distinct = true → (value : shape.Value) →
    shape.value? (shape.tree value).document = some value
  | .integer, _, value => Numeral.int64?_ofInt value
  | .text, _, _ => rfl
  | .optionalText, _, none => rfl
  | .optionalText, _, some _ => rfl
  | .list item, h, values => list?_documents (item.value?_tree h) values
  | .record _ fields, h, values =>
      let ⟨_, hslots, hcomplete⟩ := fields.exists_slots h values
      record?_object fields.listed? hslots hcomplete

/-- The members of a record fill its slots with its values. -/
theorem Fields.exists_slots : (fields : Fields) → fields.distinct = true → (values : fields.Values) →
    ∃ slots, (Tree.memberDocuments (fields.members values)).foldlM (noteMember fields.note?)
      fields.vacant = some slots ∧ fields.complete slots = .ok values
  | .nil, _, () => ⟨(), rfl, rfl⟩
  | .cons name shape rest, h, (value, values) => by
      rw [Fields.distinct, Bool.and_eq_true, Bool.and_eq_true, Bool.not_eq_true',
        List.contains_eq_mem, decide_eq_false_iff_not] at h
      obtain ⟨⟨hname, hshape⟩, hrest⟩ := h
      obtain ⟨slots, hslots, hcomplete⟩ := rest.exists_slots hrest values
      have hothers : ∀ m ∈ Tree.memberDocuments (rest.members values), m.1 ≠ some name := by
        rw [memberDocuments_eq_map]
        intro m hm heq
        obtain ⟨m', hm', rfl⟩ := List.mem_map.mp hm
        cases heq
        exact hname (mem_names_of_mem_members rest values m' hm')
      -- Once the slot of this field is settled, the other members fill the other slots.
      have hpass (slot : Option shape.Value) :
          (Tree.memberDocuments (rest.members values)).foldlM
            (noteMember (noteField name shape.value? rest.note?)) (slot, rest.vacant) =
              some (slot, slots) := by
        rw [foldlM_noteField hothers, hslots]
        rfl
      by_cases habsent : shape.isAbsent value = true
      · refine ⟨(none, slots), ?_, ?_⟩
        · rw [Fields.members, if_pos habsent]
          exact hpass none
        · rw [Fields.complete, empty?_of_isAbsent habsent, hcomplete]
          rfl
      · refine ⟨(some value, slots), ?_, ?_⟩
        · have hnote : noteField name shape.value? rest.note? name (none, rest.vacant)
              (shape.tree value).document = some (some value, rest.vacant) := by
            rw [noteField, if_pos rfl]
            show (shape.value? (shape.tree value).document).map _ = _
            rw [shape.value?_tree hshape value]
            rfl
          rw [Fields.members, if_neg habsent]
          show (noteField name shape.value? rest.note? name (none, rest.vacant)
            (shape.tree value).document).bind _ = _
          rw [hnote]
          exact hpass (some value)
        · rw [Fields.complete, hcomplete]
          rfl

end

/-! ## Whole texts -/

theorem eq_ok_of_toOption {x : Except ε α} {a : α} (h : x.toOption = some a) : x = .ok a := by
  cases x with
  | error e => cases h
  | ok b => cases h; rfl

namespace Shape

variable {shape : Shape} (h : shape.distinct = true) (value : shape.Value)
include h

theorem document_compact : shape.reader.document (shape.tree value).compact = .ok value := by
  apply eq_ok_of_toOption
  rw [toOption_document shape.reads (Tree.spelledBy_compact _), value?_tree shape h value]

theorem document_pretty : shape.reader.document (shape.tree value).pretty = .ok value := by
  apply eq_ok_of_toOption
  rw [toOption_document shape.reads (Tree.spelledBy_pretty _), value?_tree shape h value]

end Shape

end UmlSkeleton.Json

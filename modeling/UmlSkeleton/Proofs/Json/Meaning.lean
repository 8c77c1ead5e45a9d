import UmlSkeleton.Json.Record
import UmlSkeleton.Proofs.Json.Skipping

/-!
# What a document means to a shape

`Shape.value?` says what a document means where a shape is expected, without any text: the members of
an object fill the fields of a record one after the other, unknown ones are ignored, and what is left
vacant must have an empty value. `Shape.reads` shows that the reader of a shape finds exactly this in
every text that spells the document, and stops right behind it; where the document means nothing to
the shape, the reader stops with a fault.
-/

namespace UmlSkeleton.Json

/-! ## Meaning -/

/-- The integer of 64 bits that a numeral is written as. -/
def Numeral.int64? (n : Numeral) : Option Int64 :=
  match n.number with
  | .ok (.integer value) => if value ≤ Int64.maxValue.toInt then some (.ofInt value) else none
  | _ => none

/-- What a document means where an integer is expected. -/
def Document.integer? : Document → Option Int64
  | .number n => n.int64?
  | _ => none

/-- What a document means where a text is expected. -/
def Document.text? : Document → Option String
  | .text s => s
  | _ => none

/-- What a document means where a text may be left out. -/
def Document.optionalText? : Document → Option (Option String)
  | .null => some none
  | .text s => s.map some
  | _ => none

/-- What a document means where a list is expected, its items meaning what `item` says. -/
def Document.list? (item : Document → Option α) : Document → Option (List α)
  | .list ds => ds.mapM item
  | _ => none

/-- What a document means where a record is expected, which is an object or a list. -/
def Document.record? (members : List (Option String × Document) → Option α)
    (items : List Document → Option α) : Document → Option α
  | .object ms => members ms
  | .list ds => items ds
  | _ => none

/-- Note one member, if its key has a text. -/
def noteMember (note : String → σ → Document → Option σ) (slots : σ)
    (member : Option String × Document) : Option σ := do note (← member.1) slots member.2

/-- A member fills the slot of its field, unless the slot is taken. It may be one of the others. -/
def noteField (name : String) (value : Document → Option α) (others : String → σ → Document → Option σ)
    (key : String) (slots : Option α × σ) (d : Document) : Option (Option α × σ) :=
  if key = name then
    match slots.1 with
    | some _ => none
    | none => (value d).map fun a => (some a, slots.2)
  else (others key slots.2 d).map (slots.1, ·)

/-- No item is left. -/
def noItems? : List Document → Option Unit
  | [] => some ()
  | _ :: _ => none

/-- One item, which may be left out at the end if it has an empty value, and then the others. -/
def itemAnd? {α β : Type} (empty : Option α) (value : Document → Option α)
    (others : List Document → Option β) : List Document → Option (α × β)
  | [] => do return (← empty, ← others [])
  | d :: ds => do return (← value d, ← others ds)

mutual

/-- What a document means where a shape is expected. -/
def Shape.value? : (shape : Shape) → Document → Option shape.Value
  | .integer => Document.integer?
  | .text => Document.text?
  | .optionalText => Document.optionalText?
  | .list item => Document.list? item.value?
  | .record _ fields =>
    Document.record?
      (fun ms => do (fields.complete (← ms.foldlM (noteMember fields.note?) fields.vacant)).toOption)
      fields.listed?

/-- What the members of an object mean to the fields of a record. Unknown members mean nothing. -/
def Fields.note? : (fields : Fields) → String → fields.Slots → Document → Option fields.Slots
  | .nil => fun _ _ _ => some ()
  | .cons name shape rest => noteField name shape.value? rest.note?

/-- What the items of a list mean to the fields of a record, in order. -/
def Fields.listed? : (fields : Fields) → List Document → Option fields.Values
  | .nil => noItems?
  | .cons _ shape rest => itemAnd? shape.empty? shape.value? rest.listed?

end

/-! ## Readers that find the meaning -/

/-- The reader finds what `f` says, and stops behind it. -/
def Reader.Reads (reader : Reader α) (f : Document → Option α) : Prop :=
  ∀ {d : Document} {g cs rest : List Char}, Gap g → Spells (.value d) cs → Ends rest →
    (reader.run (g ++ (cs ++ rest))).toOption = (f d).map (·, rest)

def MemberReader.Reads (member : MemberReader σ) (f : String → σ → Document → Option σ) : Prop :=
  ∀ {key : String} {slots : σ} {d : Document} {g g' cs rest : List Char}, Gap g → Gap g' →
    Spells (.value d) cs → Ends rest →
      (member.run key slots (g ++ ':' :: (g' ++ (cs ++ rest)))).toOption = (f key slots d).map (·, rest)

def FieldsReader.Reads (listed : FieldsReader β) (f : List Document → Option β) : Prop :=
  ∀ {index : Nat} {first : Bool} {ds : List Document} {cs rest : List Char},
    Spells (.items first ds) cs →
      (listed.run index first (cs ++ ']' :: rest)).toOption = (f ds).map (·, rest)

/-- Reading with a known outcome either fails, there being nothing to find, or succeeds. -/
theorem read_cases {x : Except Fault (α × List Char)} {found : Option α} {rest : List Char}
    (h : x.toOption = found.map (·, rest)) :
    (∃ fault, x = .error fault ∧ found = none) ∨ ∃ a, x = .ok (a, rest) ∧ found = some a := by
  cases x with
  | error fault =>
      cases found with
      | none => exact .inl ⟨fault, rfl, rfl⟩
      | some a => cases h
  | ok y =>
      cases found with
      | none => cases h
      | some a => cases h; exact .inr ⟨a, rfl, rfl⟩

/-! ## Scalars -/

section
variable {d : Document} {g cs rest : List Char}

theorem toOption_readInteger (hg : Gap g) (h : Spells (.value d) cs) (hrest : Ends rest) :
    (readInteger (g ++ (cs ++ rest))).toOption = d.integer?.map (·, rest) := by
  obtain ⟨c, more, rfl, hc⟩ := h.exists_cons
  rw [readInteger, skipSpace_value hg hc]
  generalize hcs : c :: more = cs at h
  cases h with
  | @number n cs hn =>
      obtain ⟨c', more', rfl, hc'⟩ := hn.exists_cons
      cases hcs
      have hnumber := readNumber_spells hn hrest
      rw [List.cons_append] at hnumber
      simp only [if_pos hc', hnumber, Document.integer?, Numeral.int64?]
      cases n.number with
      | error unread => rfl
      | ok number =>
          cases number with
          | floating value => rfl
          | integer value =>
              by_cases hmax : value ≤ Int64.maxValue.toInt
              · simp only [if_pos hmax]
                rfl
              · simp only [if_neg hmax]
                rfl
  | _ =>
      cases hcs
      rfl

theorem toOption_readText (hg : Gap g) (h : Spells (.value d) cs) :
    (readText (g ++ (cs ++ rest))).toOption = d.text?.map (·, rest) := by
  obtain ⟨c, more, rfl, hc⟩ := h.exists_cons
  rw [readText, skipSpace_value hg hc]
  generalize hcs : c :: more = cs at h
  cases h with
  | @text es cs hes =>
      cases hcs
      show (readString (cs ++ ['"'] ++ rest)).toOption = _
      rw [List.append_assoc]
      exact toOption_readString hes
  | number hn =>
      obtain ⟨c', more', rfl, hc'⟩ := hn.exists_cons
      cases hcs
      simp only [if_neg (ne_of_test hc' (by decide : startsNumber '"' = false))]
      rfl
  | _ =>
      cases hcs
      rfl

/-- A document is `null`, or it does not begin like it and is a text exactly when it is one where it
may be left out. -/
theorem Spells.eq_null_or {c : Char} {more : List Char} (h : Spells (.value d) (c :: more)) :
    d = .null ∧ c = 'n' ∧ more = ['u', 'l', 'l'] ∨
      c ≠ 'n' ∧ d.optionalText? = d.text?.map some := by
  generalize hcs : c :: more = cs at h
  cases h with
  | null => cases hcs; exact .inl ⟨rfl, rfl, rfl⟩
  | number hn =>
      obtain ⟨c', more', rfl, hc'⟩ := hn.exists_cons
      cases hcs
      exact .inr ⟨ne_of_test hc' (by decide), rfl⟩
  | _ =>
      cases hcs
      exact .inr ⟨by decide, rfl⟩

theorem toOption_readOptionalText (hg : Gap g) (h : Spells (.value d) cs) :
    (readOptionalText (g ++ (cs ++ rest))).toOption = d.optionalText?.map (·, rest) := by
  obtain ⟨c, more, rfl, hc⟩ := h.exists_cons
  rw [readOptionalText, skipSpace_value hg hc]
  rcases h.eq_null_or with ⟨rfl, rfl, rfl⟩ | ⟨hne, hmeaning⟩
  · rfl
  · have htext : (readText (c :: (more ++ rest))).toOption = d.text?.map (·, rest) :=
      toOption_readText gap_nil h
    simp only [if_neg hne]
    rcases read_cases htext with ⟨fault, hread, hd⟩ | ⟨s, hread, hd⟩
    · rw [hread, hmeaning, hd]
      rfl
    · rw [hread, hmeaning, hd]
      rfl

end

/-! ## Lists -/

theorem nextItem_close {first : Bool} {g rest : List Char} (hg : Gap g) :
    nextItem first (g ++ ']' :: rest) = .ok (.close (']' :: rest)) := by
  rw [nextItem, skipSpace_append_cons hg (by decide)]
  rfl

theorem nextItem_entry {first : Bool} {s rest : List Char} {c : Char} (hs : Separator first s)
    (hc : opensValue c = true) : nextItem first (s ++ c :: rest) = .ok (.entry (c :: rest)) := by
  have hclose : c ≠ ']' := ne_of_test hc (by decide)
  have hspace := isSpace_of_opensValue hc
  cases hs with
  | first hg =>
      rw [nextItem, skipSpace_append_cons hg hspace]
      simp [hclose]
  | later hg hg' =>
      rw [List.append_assoc, List.cons_append, nextItem, skipSpace_append_cons hg (by decide)]
      simp [skipSpace_append_cons hg' hspace, hclose]

theorem readItems_close {item : Reader α} {first : Bool} {cs more : List Char} (read : List α)
    (h : nextItem first cs = .ok (.close more)) :
    readItems item first read cs = .ok (read.reverse, more.tail) := by
  rw [readItems]
  split
  · next h' => rw [h] at h'; cases h'
  · next h' => rw [h] at h'; cases h'; rfl
  · next h' => rw [h] at h'; cases h'

theorem readItems_entry {item : Reader α} {first : Bool} {cs more : List Char} (read : List α)
    (h : nextItem first cs = .ok (.entry more)) :
    readItems item first read cs =
      match item.run more with
      | .error fault => .error fault
      | .ok (a, rest) => readItems item false (a :: read) rest := by
  rw [readItems]
  split
  · next h' => rw [h] at h'; cases h'
  · next h' => rw [h] at h'; cases h'
  · next h' =>
      rw [h] at h'
      cases h'
      split
      · next hrun => rw [hrun]
      · next hrun => rw [hrun]

/-- The items of a list are read one after the other, up to the closing bracket. -/
theorem toOption_readItems {item : Reader α} {f : Document → Option α} (hitem : item.Reads f)
    {first : Bool} {ds : List Document} {cs rest : List Char} (read : List α)
    (h : Spells (.items first ds) cs) :
    (readItems item first read (cs ++ ']' :: rest)).toOption =
      (ds.mapM f).map fun items => (read.reverse ++ items, rest) := by
  induction ds generalizing first cs read with
  | nil =>
      cases h with
      | noItems hg =>
          rw [readItems_close read (nextItem_close hg), List.mapM_nil]
          show some (read.reverse, rest) = some (read.reverse ++ [], rest)
          rw [List.append_nil]
  | cons d ds ih =>
      cases h with
      | @item _ s cs more _ _ hs hd hds =>
          obtain ⟨c, cs', rfl, hc⟩ := hd.exists_cons
          have hrun := hitem gap_nil hd (hds.ends_items (ends_listEnd : Ends (']' :: rest)))
          simp only [List.append_assoc, List.cons_append, List.nil_append] at hrun ⊢
          rw [readItems_entry read (nextItem_entry hs hc), List.mapM_cons]
          rcases read_cases hrun with ⟨fault, hread, hf⟩ | ⟨a, hread, hf⟩
          · rw [hread, hf]
            rfl
          · rw [hread, hf]
            show (readItems item false (a :: read) (more ++ ']' :: rest)).toOption = _
            rw [ih (a :: read) hds]
            cases ds.mapM f with
            | none => rfl
            | some items => simp

theorem toOption_readList {item : Reader α} {f : Document → Option α} (hitem : item.Reads f)
    {d : Document} {g cs rest : List Char} (hg : Gap g) (h : Spells (.value d) cs) :
    (readList item (g ++ (cs ++ rest))).toOption = (d.list? f).map (·, rest) := by
  obtain ⟨c, more, rfl, hc⟩ := h.exists_cons
  rw [readList, skipSpace_value hg hc]
  generalize hcs : c :: more = cs at h
  cases h with
  | @list ds cs hds =>
      cases hcs
      show (readItems item true [] (cs ++ [']'] ++ rest)).toOption = _
      rw [List.append_assoc]
      exact toOption_readItems hitem [] hds
  | number hn =>
      obtain ⟨c', more', rfl, hc'⟩ := hn.exists_cons
      cases hcs
      simp only [if_neg (ne_of_test hc' (by decide : startsNumber '[' = false))]
      rfl
  | _ =>
      cases hcs
      rfl

/-! ## Members of an object -/

theorem reads_unknown : MemberReader.unknown.Reads fun _ _ _ => some () := by
  intro key slots d g g' cs rest hg hg' h hrest
  unfold MemberReader.unknown
  simp only [readColon_append hg, skipValue_spells h hg' hrest]
  rfl

theorem reads_field {name : String} {value : Reader α} {f : Document → Option α}
    {others : MemberReader σ} {k : String → σ → Document → Option σ} (hvalue : value.Reads f)
    (hothers : others.Reads k) : (MemberReader.field name value others).Reads (noteField name f k) := by
  intro key slots d g g' cs rest hg hg' h hrest
  obtain ⟨slot, slots⟩ := slots
  unfold MemberReader.field noteField
  by_cases hkey : key = name
  · simp only [if_pos hkey]
    cases slot with
    | some a => rfl
    | none =>
        -- Only now, with the slot still vacant, the value is looked at.
        simp only [readColon_append hg]
        rcases read_cases (hvalue hg' h hrest) with ⟨fault, hread, hf⟩ | ⟨a, hread, hf⟩
        · rw [hread, hf]
          rfl
        · rw [hread, hf]
          rfl
  · simp only [if_neg hkey]
    have hrun : (others.run key slots (g ++ ':' :: (g' ++ (cs ++ rest)))).toOption =
        (k key slots d).map (·, rest) := hothers hg hg' h hrest
    rcases read_cases hrun with ⟨fault, hread, hk⟩ | ⟨found, hread, hk⟩
    · rw [hread, hk]
      rfl
    · rw [hread, hk]
      rfl

theorem nextKey_close {first : Bool} {g rest : List Char} (hg : Gap g) :
    nextKey first (g ++ '\x7d' :: rest) = .ok (.close ('\x7d' :: rest)) := by
  rw [nextKey, skipSpace_append_cons hg (by decide)]
  rfl

theorem nextKey_entry {first : Bool} {s rest : List Char} (hs : Separator first s) :
    nextKey first (s ++ '"' :: rest) = .ok (.entry rest) := by
  cases hs with
  | first hg =>
      rw [nextKey, skipSpace_append_cons hg (by decide)]
      rfl
  | later hg hg' =>
      rw [List.append_assoc, List.cons_append, nextKey, skipSpace_append_cons hg (by decide)]
      simp [skipSpace_append_cons hg' (by decide : isSpace '"' = false)]

theorem readMembers_close {member : MemberReader σ} {first : Bool} {cs more : List Char} (slots : σ)
    (h : nextKey first cs = .ok (.close more)) :
    readMembers member first slots cs = .ok (slots, more.tail) := by
  rw [readMembers]
  split
  · next h' => rw [h] at h'; cases h'
  · next h' => rw [h] at h'; cases h'; rfl
  · next h' => rw [h] at h'; cases h'

theorem readMembers_entry {member : MemberReader σ} {first : Bool} {cs more : List Char} (slots : σ)
    (h : nextKey first cs = .ok (.entry more)) :
    readMembers member first slots cs =
      match readString more with
      | .error fault => .error fault
      | .ok (key, rest) =>
        match member.run key slots rest with
        | .error fault => .error fault
        | .ok (slots, rest) => readMembers member false slots rest := by
  rw [readMembers]
  split
  · next h' => rw [h] at h'; cases h'
  · next h' => rw [h] at h'; cases h'
  · next h' =>
      rw [h] at h'
      cases h'
      split
      · next hkey => rw [hkey]
      · next hkey =>
          rw [hkey]
          split
          · next hrun => simp only [hrun]
          · next hrun => simp only [hrun]

/-- The members of an object are noted one after the other, up to the closing brace. -/
theorem toOption_readMembers {member : MemberReader σ} {note : String → σ → Document → Option σ}
    (hmember : member.Reads note) {first : Bool} {ms : List (Option String × Document)}
    {cs rest : List Char} (slots : σ) (h : Spells (.members first ms) cs) :
    (readMembers member first slots (cs ++ '\x7d' :: rest)).toOption =
      (ms.foldlM (noteMember note) slots).map (·, rest) := by
  induction ms generalizing first cs slots with
  | nil =>
      cases h with
      | noMembers hg =>
          rw [readMembers_close slots (nextKey_close hg)]
          rfl
  | cons m ms ih =>
      cases h with
      | @member _ s key g g' cs more es d _ hs hkey hg hg' hd hms =>
          have hends : Ends (more ++ '\x7d' :: rest) := hms.ends_members ends_objectEnd
          simp only [List.append_assoc, List.cons_append]
          rw [readMembers_entry slots (nextKey_entry hs), List.foldlM_cons, noteMember]
          -- A key without a text stops the reader, and such a member means nothing.
          rcases read_cases (toOption_readString hkey) with ⟨fault, hread, htext⟩ | ⟨k, hread, htext⟩
          · rw [hread, htext]
            rfl
          · rw [hread, htext]
            have hrun : (member.run k slots (g ++ ':' :: (g' ++ (cs ++ (more ++ '\x7d' :: rest))))).toOption =
                (note k slots d).map (·, more ++ '\x7d' :: rest) := hmember hg hg' hd hends
            rcases read_cases hrun with ⟨fault, hread, hnote⟩ | ⟨slots', hread, hnote⟩
            · simp only [hread]
              show none = Option.map _ ((note k slots d).bind _)
              rw [hnote]
              rfl
            · simp only [hread]
              show _ = Option.map _ ((note k slots d).bind _)
              rw [hnote]
              exact ih slots' hms

/-! ## Fields in a list -/

theorem reads_done : FieldsReader.done.Reads noItems? := by
  intro index first ds cs rest h
  cases h with
  | noItems hg =>
      unfold FieldsReader.done
      simp only [skipSpace_append_cons hg (by decide : isSpace ']' = false)]
      rfl
  | item hs hd hds =>
      obtain ⟨c, cs', rfl, hc⟩ := hd.exists_cons
      have hclose : c ≠ ']' := ne_of_test hc (by decide)
      have hspace := isSpace_of_opensValue hc
      unfold FieldsReader.done
      simp only [List.append_assoc, List.cons_append]
      cases hs with
      | first hg =>
          have hcomma : c ≠ ',' := ne_of_test hc (by decide)
          simp only [skipSpace_append_cons hg hspace, if_neg hclose, if_neg hcomma]
          rfl
      | later hg hg' =>
          simp only [List.append_assoc, List.cons_append,
            skipSpace_append_cons hg (by decide : isSpace ',' = false),
            skipSpace_append_cons hg' hspace, if_neg hclose]
          rfl

theorem reads_fieldAnd {expected : String} {empty : Option α} {value : Reader α}
    {f : Document → Option α} {others : FieldsReader β} {k : List Document → Option β}
    (hvalue : value.Reads f) (hothers : others.Reads k) :
    (FieldsReader.field expected empty value others).Reads (itemAnd? empty f k) := by
  intro index first ds cs rest h
  unfold FieldsReader.field
  cases h with
  | noItems hg =>
      -- The list ends early: from here on, every field has to do without an item.
      simp only [nextItem_close hg]
      cases empty with
      | none => rfl
      | some a =>
          have hrun : (others.run (index + 1) first (']' :: rest)).toOption = (k []).map (·, rest) :=
            hothers (.noItems gap_nil)
          rcases read_cases hrun with ⟨fault, hread, hk⟩ | ⟨b, hread, hk⟩
          · simp only [hread]
            show none = Option.map _ ((k []).bind _)
            rw [hk]
            rfl
          · simp only [hread]
            show _ = Option.map _ ((k []).bind _)
            rw [hk]
            rfl
  | @item _ s _ more d ds hs hd hds =>
      obtain ⟨c, cs', rfl, hc⟩ := hd.exists_cons
      have hends : Ends (more ++ ']' :: rest) := hds.ends_items ends_listEnd
      have hrun : (others.run (index + 1) false (more ++ ']' :: rest)).toOption =
          (k ds).map (·, rest) := hothers hds
      simp only [List.append_assoc, List.cons_append, nextItem_entry hs hc]
      rcases read_cases (hvalue gap_nil hd hends) with ⟨fault, hread, hf⟩ | ⟨a, hread, hf⟩
      · simp only [List.nil_append, List.cons_append] at hread
        simp only [hread]
        show none = Option.map _ ((f d).bind _)
        rw [hf]
        rfl
      · simp only [List.nil_append, List.cons_append] at hread
        simp only [hread]
        show _ = Option.map _ ((f d).bind _)
        rw [hf]
        rcases read_cases hrun with ⟨fault, hread, hk⟩ | ⟨b, hread, hk⟩
        · rw [hread]
          show none = Option.map _ ((k ds).bind _)
          rw [hk]
          rfl
        · rw [hread]
          show _ = Option.map _ ((k ds).bind _)
          rw [hk]
          rfl

/-! ## Records and all other shapes -/

theorem toOption_readRecord {name : String} {fields : Fields} {member : MemberReader fields.Slots}
    {listed : FieldsReader fields.Values} {note : String → fields.Slots → Document → Option fields.Slots}
    {items : List Document → Option fields.Values} (hmember : member.Reads note)
    (hlisted : listed.Reads items) {d : Document} {g cs rest : List Char} (hg : Gap g)
    (h : Spells (.value d) cs) :
    (readRecord name fields member listed (g ++ (cs ++ rest))).toOption =
      (d.record? (fun ms => do
        (fields.complete (← ms.foldlM (noteMember note) fields.vacant)).toOption) items).map
          (·, rest) := by
  obtain ⟨c, more, rfl, hc⟩ := h.exists_cons
  rw [readRecord, skipSpace_value hg hc]
  generalize hcs : c :: more = cs at h
  cases h with
  | @list ds cs hds =>
      cases hcs
      show (listed.run 0 true (cs ++ [']'] ++ rest)).toOption = _
      rw [List.append_assoc]
      exact hlisted hds
  | @object ms cs hms =>
      cases hcs
      have hmembers : (readMembers member true fields.vacant (cs ++ '\x7d' :: rest)).toOption = _ :=
        toOption_readMembers hmember fields.vacant hms
      rw [List.append_assoc]
      simp only [List.singleton_append]
      show Except.toOption _ = Option.map _ ((ms.foldlM (noteMember note) fields.vacant).bind _)
      rcases read_cases hmembers with ⟨fault, hread, hfound⟩ | ⟨slots, hread, hfound⟩
      · simp only [hread]
        rw [hfound]
        rfl
      · simp only [hread]
        rw [hfound]
        rw [if_pos trivial]
        show _ = (fields.complete slots).toOption.map (·, rest)
        cases fields.complete slots with
        | error missing => rfl
        | ok values => rfl
  | number hn =>
      obtain ⟨c', more', rfl, hc'⟩ := hn.exists_cons
      cases hcs
      simp only [if_neg (ne_of_test hc' (by decide : startsNumber '[' = false)),
        if_neg (ne_of_test hc' (by decide : startsNumber '\x7b' = false))]
      rfl
  | _ =>
      cases hcs
      rfl

mutual

/-- The reader of a shape finds what a document means to it. -/
theorem Shape.reads : (shape : Shape) → shape.reader.Reads shape.value?
  | .integer => fun hg h hrest => toOption_readInteger hg h hrest
  | .text => fun hg h _ => toOption_readText hg h
  | .optionalText => fun hg h _ => toOption_readOptionalText hg h
  | .list item => fun hg h _ => toOption_readList item.reads hg h
  | .record _ fields => fun hg h _ =>
    toOption_readRecord fields.reads_member (fields.reads_list _) hg h

theorem Fields.reads_member : (fields : Fields) → fields.memberReader.Reads fields.note?
  | .nil => reads_unknown
  | .cons _ shape rest => reads_field shape.reads rest.reads_member

theorem Fields.reads_list (expected : String) :
    (fields : Fields) → (fields.listReader expected).Reads fields.listed?
  | .nil => reads_done
  | .cons _ shape rest => reads_fieldAnd shape.reads (rest.reads_list expected)

end

/-! ## Documents -/

/-- Where a reader finds the meaning of values, it finds that of whole texts. -/
theorem toOption_document {reader : Reader α} {f : Document → Option α} (hreader : reader.Reads f)
    {d : Document} {text : String} (h : d.SpelledBy text) :
    (reader.document text).toOption = f d := by
  obtain ⟨g, cs, g', hg, hd, hg', htext⟩ := h
  have hrun := hreader hg hd (by simpa using hg'.ends_append ends_nil)
  unfold Reader.document
  rw [htext]
  rcases read_cases hrun with ⟨fault, hread, hf⟩ | ⟨a, hread, hf⟩
  · simp only [hread, hf]
    rfl
  · have hrest : skipSpace g' = [] := by
      rw [← List.append_nil g', skipSpace_append hg']
      rfl
    simp only [hread, hf, hrest]
    rfl

end UmlSkeleton.Json

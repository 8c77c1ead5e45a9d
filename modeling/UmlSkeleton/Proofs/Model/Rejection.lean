import UmlSkeleton.Proofs.Model.Presentation
import UmlSkeleton.Skeleton.Document

/-!
# Reading never guesses

A document that is read as a model has each required field, no field twice, and each value of the kind
that its field asks for (`Document.Fits`). An edit that takes one of these away from one of the objects
(`Spoiled`) leaves a document that is refused, whatever else it holds and however deep the object stands.

For integers the kind includes the range. A numeral with a fraction or a power of ten is never an integer,
and one without them is an integer of 64 bits only if its digits stand for one (`Numeral.toInt_of_int64?`).
-/

namespace UmlSkeleton.Json

/-! ## Numerals that are integers -/

namespace Numeral

/-- The integer that the digits before the point stand for, with the sign. -/
def value (n : Numeral) : Int :=
  if n.negative then -(Nat.ofDigitChars 10 n.whole 0 : Int) else Nat.ofDigitChars 10 n.whole 0

variable {n : Numeral} {v : Int}

theorem toDouble_ne_integer {negative : Bool} {word : Nat} {power : Int} :
    toDouble negative word power ≠ .ok (.integer v) := by
  intro h
  unfold toDouble at h
  split at h <;> cases h

/-- A word that is not full has taken in all digits. -/
theorem word_foldl_pushWhole {ds : List Char} {s : Scaled} (h : (ds.foldl Scaled.pushWhole s).full = false) :
    s.full = false ∧ (ds.foldl Scaled.pushWhole s).word = Nat.ofDigitChars 10 ds s.word := by
  induction ds generalizing s with
  | nil => exact ⟨h, rfl⟩
  | cons d ds ih =>
      rw [List.foldl_cons] at h ⊢
      obtain ⟨hfull, hword⟩ := ih h
      rw [hword, Nat.ofDigitChars_cons]
      unfold Scaled.pushWhole at hfull ⊢
      split at hfull
      · next hs => exact absurd hfull (by simp [hs])
      · next hs =>
          split at hfull
          · next hle =>
              rw [if_neg hs, if_pos hle]
              exact ⟨by simpa using hs, congrArg _ (by rw [Nat.mul_comm]; rfl)⟩
          · cases hfull

/-- An integer has neither fraction nor power, and is what its digits say. -/
theorem eq_value_of_number (h : n.number = .ok (.integer v)) :
    n.fraction = [] ∧ n.power = none ∧ v = n.value ∧ -0x8000000000000000 ≤ v := by
  unfold number at h
  split at h
  · split at h
    · exact absurd h toDouble_ne_integer
    · split at h <;> cases h
  · next hpower =>
      split at h
      · next hfraction =>
          refine ⟨by simpa using hfraction, hpower, ?_⟩
          unfold wholeNumber at h
          split at h
          · exact absurd h toDouble_ne_integer
          · next hfull =>
              obtain ⟨-, hword⟩ := word_foldl_pushWhole (by simpa [wholePart] using hfull)
              rw [value, ← hword]
              split at h
              · next hsign =>
                  cases h
                  rw [if_neg (by simpa using hsign)]
                  exact ⟨rfl, by omega⟩
              · next hsign =>
                  split at h
                  · exact absurd h toDouble_ne_integer
                  · next hrange =>
                      cases h
                      rw [if_pos (by simpa using hsign)]
                      exact ⟨rfl, by omega⟩
      · exact absurd h toDouble_ne_integer

/-- What is read as an integer of 64 bits is one. -/
theorem value_of_int64? {i : Int64} (h : n.int64? = some i) :
    n.fraction = [] ∧ n.power = none ∧ -0x8000000000000000 ≤ n.value ∧ n.value < 0x8000000000000000 := by
  unfold int64? at h
  split at h
  · next v hnumber =>
      obtain ⟨hfraction, hpower, rfl, hmin⟩ := eq_value_of_number hnumber
      split at h
      · next hmax => exact ⟨hfraction, hpower, hmin, Int.lt_add_one_of_le hmax⟩
      · cases h
  · cases h

end Numeral

/-! ## Values of the right kind -/

/-- The value is of the kind that a shape asks for: an integer of 64 bits, a string, a string or `null`, a
list, or a record. -/
def Document.Fits : Shape → Document → Prop
  | .integer, d => ∃ n : Numeral, d = .number n ∧ n.fraction = [] ∧ n.power = none ∧
      -0x8000000000000000 ≤ n.value ∧ n.value < 0x8000000000000000
  | .text, d => ∃ s, d = .text s
  | .optionalText, d => d = .null ∨ ∃ s, d = .text s
  | .list _, d => ∃ ds, d = .list ds
  | .record _ _, d => (∃ ms, d = .object ms) ∨ ∃ ds, d = .list ds

/-- A value that means something is of the right kind. -/
theorem Document.fits_of_value? {shape : Shape} {d : Document} (h : (shape.value? d).isSome) :
    d.Fits shape := by
  obtain ⟨v, h⟩ := Option.isSome_iff_exists.mp h
  cases shape with
  | integer =>
      cases d with
      | number n => exact ⟨n, rfl, Numeral.value_of_int64? h⟩
      | _ => cases h
  | text =>
      cases d with
      | text s => exact ⟨s, rfl⟩
      | _ => cases h
  | optionalText =>
      cases d with
      | null => exact .inl rfl
      | text s => exact .inr ⟨s, rfl⟩
      | _ => cases h
  | list item =>
      cases d with
      | list ds => exact ⟨ds, rfl⟩
      | _ => cases h
  | record name fields =>
      cases d with
      | object ms => exact .inl ⟨ms, rfl⟩
      | list ds => exact .inr ⟨ds, rfl⟩
      | _ => cases h

/-! ## Edits that spoil an object -/

/-- An object after one of these edits: a required member is deleted, a second member of a declared name is
put in somewhere, or the value of a declared member is replaced by one of the wrong kind. Integers and texts
are required. -/
inductive Spoiled (fields : Fields) : Document → Document → Prop where
  | deleted {key : String} {shape : Shape} {d : Document} {before after : List (Option String × Document)}
      (hdeclared : fields.Declares key shape) (hrequired : shape = .integer ∨ shape = .text) :
      Spoiled fields (.object (before ++ (some key, d) :: after)) (.object (before ++ after))
  | repeated {key : String} {shape : Shape} {d : Document} {before after : List (Option String × Document)}
      (hdeclared : fields.Declares key shape) (hpresent : some key ∈ (before ++ after).map (·.1)) :
      Spoiled fields (.object (before ++ after)) (.object (before ++ (some key, d) :: after))
  | replaced {key : String} {shape : Shape} {d d' : Document}
      {before after : List (Option String × Document)} (hdeclared : fields.Declares key shape)
      (h : ¬ d'.Fits shape) :
      Spoiled fields (.object (before ++ (some key, d) :: after)) (.object (before ++ (some key, d') :: after))

theorem Spoiled.value?_eq_none {fields : Fields} {d d' : Document} {record : String}
    (h : Spoiled fields d d') (hdistinct : fields.distinct = true)
    (hd : ((Shape.record record fields).value? d).isSome) : (Shape.record record fields).value? d' = none := by
  rw [← Option.not_isSome_iff_eq_none]
  intro hd'
  cases h with
  | @deleted key shape d before after hdeclared hrequired =>
      rw [Shape.value?_object hdistinct] at hd hd'
      -- There was only one member of this name, and the field has no empty value.
      have hsingle := Fields.isSome_single? hdeclared (isSome_gather?_of_object? hd')
      have hone := (named_eq_of_object? hdeclared (d := d) (by simp) hd).1
      rw [named_append, named_cons_self] at hone
      have hnone : named key (before ++ after) = [] := by
        rw [named_append]
        cases hbefore : named key before with
        | nil => rw [hbefore] at hone; exact List.tail_eq_of_cons_eq hone
        | cons e es => rw [hbefore] at hone; exact absurd (congrArg List.length hone) (by simp)
      rw [hnone] at hsingle
      rcases hrequired with rfl | rfl <;> cases hsingle
  | @repeated key shape d before after hdeclared hpresent =>
      rw [Shape.value?_object hdistinct] at hd'
      have hone := (named_eq_of_object? hdeclared (d := d) (by simp) hd').1
      obtain ⟨⟨-, e⟩, hmem, rfl⟩ := List.mem_map.mp hpresent
      have hlength := congrArg List.length hone
      have hpos := List.length_pos_of_mem (mem_named hmem)
      rw [named_append, List.length_append] at hpos
      rw [named_append, named_cons_self, List.length_append, List.length_cons, List.length_singleton] at hlength
      omega
  | @replaced key shape d d' before after hdeclared h =>
      rw [Shape.value?_object hdistinct] at hd'
      exact h (Document.fits_of_value? (named_eq_of_object? hdeclared (by simp) hd').2)

end UmlSkeleton.Json

namespace UmlSkeleton

open Json

namespace Model

/-- **Reading never guesses.** A text that is read as a model spells a document, and if one object of that
document is spoiled, no text that spells the outcome is read, by itself or on the way to a skeleton for any
target: the format is at fault. -/
theorem ofText_spoiled {text : String} {m : Model} (h : ofText text = .ok m) :
    (∃ d : Document, d.SpelledBy text) ∧
      ∀ {d d' : Document} {text' : String}, d.SpelledBy text →
        Edited Spoiled format.shape d d' → d'.SpelledBy text' →
          ∃ e, ofText text' = .error (.badDocument e) ∧
            ∀ o target, generateFrom text' o target = .error (.badDocument e) := by
  have hdecode : decode text = .ok m := by
    unfold ofText at h
    cases hdecode : decode text with
    | error e => rw [hdecode] at h; cases h
    | ok m' => rw [hdecode] at h; cases h; rfl
  refine ⟨Format.exists_spelledBy hdecode, fun {d d' text'} hd hedit hd' => ?_⟩
  have hvalue : (format.shape.value? d).isSome := by
    rw [← Option.isSome_map (f := format.ofValue), ← format.toOption_decode hd]
    exact Option.isSome_of_eq_some (congrArg Except.toOption hdecode)
  have hnone : (decode text').toOption = none := by
    show (format.decode text').toOption = none
    rw [format.toOption_decode hd',
      hedit.value?_eq_none Spoiled.value?_eq_none lawful.distinct hvalue]
    rfl
  cases hdecode' : decode text' with
  | ok m' => rw [hdecode'] at hnone; cases hnone
  | error e =>
      have herror : ofText text' = .error (.badDocument e) := by
        unfold ofText
        rw [hdecode']
        rfl
      refine ⟨e, herror, fun o target => ?_⟩
      rw [generateFrom, herror]
      rfl

/-- A class whose key is one more than an integer of 64 bits can be. -/
theorem ofText_spoiled_dog :
    let dog (key : Int) : Tree := .object [("classes", .list [.object [("key", .integer key),
      ("name", .text "Dog"), ("properties", .list []), ("methods", .list [])]]), ("relationships", .list [])]
    ofText (dog 1).pretty = .ok ⟨[⟨1, "Dog", [], []⟩], []⟩ ∧
      ∃ e, ofText (dog 0x8000000000000000).compact = .error (.badDocument e) ∧
        ∀ o target, generateFrom (dog 0x8000000000000000).compact o target = .error (.badDocument e) := by
  intro dog
  have hdog : ofText (dog 1).pretty = .ok ⟨[⟨1, "Dog", [], []⟩], []⟩ :=
    congrArg (Except.mapError Failure.badDocument) (decode_pretty ⟨[⟨1, "Dog", [], []⟩], []⟩)
  have hfits : ¬ (Document.number (.ofInt 0x8000000000000000)).Fits .integer := by
    rintro ⟨n, hn, -, -, -, hlt⟩
    cases hn
    have hvalue : (Numeral.ofInt 0x8000000000000000).value = 0x8000000000000000 :=
      congrArg Int.ofNat (Nat.ofDigitChars_ten_toDigits (n := 0x8000000000000000))
    omega
  have hedit : Edited Spoiled format.shape (dog 1).document (dog 0x8000000000000000).document :=
    @Edited.member _ _ _ _ _ _ _ [] _ .head <| @Edited.item _ _ _ _ [] [] <|
      .record (@Spoiled.replaced _ _ _ _ _ [] _ .head hfits)
  exact ⟨hdog, (ofText_spoiled hdog).2 (Tree.spelledBy_pretty _) hedit (Tree.spelledBy_compact _)⟩

end Model

end UmlSkeleton

import UmlSkeleton.Json.Skip
import UmlSkeleton.Proofs.Json.Scanning

/-!
# Passing over values

`skipValue` keeps the open brackets in a list and goes through a value without recursion. Whatever
document is spelled, it stops right behind it: `skipValue_spells`. The induction is over all parts of
the grammar at once; for each part it says what happens to the brackets (`Part.Skipped`).
-/

namespace UmlSkeleton.Json

/-! ## First characters -/

/-- A character that a value begins with. -/
def opensValue (c : Char) : Bool :=
  c == 'n' || c == 't' || c == 'f' || c == '"' || c == '[' || c == '\x7b' || startsNumber c

theorem isSpace_of_opensValue {c : Char} (h : opensValue c = true) : isSpace c = false := by
  rw [← Bool.not_eq_true]
  intro hspace
  have hnone : opensValue c = false :=
    forall_space (p := fun c => opensValue c = false) (by decide) hspace
  rw [hnone] at h
  cases h

theorem skipSpace_value {g more rest : List Char} {c : Char} (hg : Gap g) (hc : opensValue c = true) :
    skipSpace (g ++ (c :: more ++ rest)) = c :: (more ++ rest) :=
  skipSpace_append_cons hg (isSpace_of_opensValue hc)

/-- A test tells two characters apart. -/
theorem ne_of_test {p : Char → Bool} {c e : Char} (hc : p c = true) (he : p e = false) : c ≠ e := by
  rintro rfl
  rw [hc] at he
  cases he

theorem WholeDigits.exists_digit {ds : List Char} (h : WholeDigits ds) :
    ∃ d more, ds = d :: more ∧ d.isDigit = true := by
  cases h with
  | zero => exact ⟨_, _, rfl, by decide⟩
  | digits hne hd hds => exact ⟨_, _, rfl, hd⟩

theorem Numeral.Spells.exists_cons {n : Numeral} {cs : List Char} (h : n.Spells cs) :
    ∃ c more, cs = c :: more ∧ startsNumber c = true := by
  cases h with
  | @intro negative whole fraction f p power hwhole hfraction hpower =>
      cases negative with
      | true => exact ⟨_, _, rfl, by decide⟩
      | false =>
          obtain ⟨d, more, rfl, hd⟩ := hwhole.exists_digit
          exact ⟨_, _, rfl, by simp [startsNumber, hd]⟩

theorem Spells.exists_cons {d : Document} {cs : List Char} (h : Spells (.value d) cs) :
    ∃ c more, cs = c :: more ∧ opensValue c = true := by
  cases h with
  | number hn =>
      obtain ⟨c, more, rfl, hc⟩ := hn.exists_cons
      exact ⟨c, more, rfl, by simp [opensValue, hc]⟩
  | _ => exact ⟨_, _, rfl, by decide⟩

/-! ## What follows an entry -/

theorem ends_of_ne {c : Char} {cs : List Char} (h : c.isDigit = false ∧ c ≠ '.' ∧ c ≠ 'e' ∧ c ≠ 'E') :
    Ends (c :: cs) := by
  rintro d hd
  cases hd
  exact h

theorem ends_comma {cs : List Char} : Ends (',' :: cs) := ends_of_ne (by decide)

theorem ends_listEnd {cs : List Char} : Ends (']' :: cs) := ends_of_ne (by decide)

theorem ends_objectEnd {cs : List Char} : Ends ('\x7d' :: cs) := ends_of_ne (by decide)

theorem Gap.ends_append {g cs : List Char} (hg : Gap g) (hcs : Ends cs) : Ends (g ++ cs) := by
  cases g with
  | nil => exact hcs
  | cons c g =>
      apply ends_of_ne
      exact forall_space (p := fun c => c.isDigit = false ∧ c ≠ '.' ∧ c ≠ 'e' ∧ c ≠ 'E') (by decide)
        (hg c (List.mem_cons_self ..))

theorem Separator.ends_append {s cs : List Char} (hs : Separator false s) : Ends (s ++ cs) := by
  cases hs with
  | later hg hg' =>
      rw [List.append_assoc]
      exact hg.ends_append ends_comma

/-- No numeral goes on into the entries after it. -/
theorem Spells.ends_items {ds : List Document} {cs rest : List Char}
    (h : Spells (.items false ds) cs) (hrest : Ends rest) : Ends (cs ++ rest) := by
  cases h with
  | noItems hg => exact hg.ends_append hrest
  | item hs hd hds =>
      rw [List.append_assoc]
      exact hs.ends_append

theorem Spells.ends_members {ms : List (Option String × Document)} {cs rest : List Char}
    (h : Spells (.members false ms) cs) (hrest : Ends rest) : Ends (cs ++ rest) := by
  cases h with
  | noMembers hg => exact hg.ends_append hrest
  | member hs hkey hg hg' hd hms =>
      rw [List.append_assoc]
      exact hs.ends_append

/-! ## One step

The recursion looks at what it has read through equations that only its termination needs. Without them
it says the following. -/

theorem skipNested_eq (opened : List Bracket) (cs : List Char) :
    skipNested opened cs =
      match skipSpace cs with
      | [] => .error (.next .unfinishedValue [])
      | c :: rest =>
        if c = '[' then
          match skipSpace rest with
          | [] => .error (.next .unfinishedList [])
          | d :: more => if d = ']' then skipAfter opened more else skipNested (.list :: opened) rest
        else if c = '\x7b' then
          match skipSpace rest with
          | [] => .error (.next .unfinishedObject [])
          | d :: more =>
            if d = '\x7d' then skipAfter opened more
            else skipKey rest >>= skipNested (.object :: opened)
        else skipScalar c rest >>= skipAfter opened := by
  rw [skipNested]
  split
  · next h => rw [h]
  · next c rest h =>
      rw [h]
      dsimp only
      congr 1
      · split
        · next h => rw [h]
        · next h => rw [h]
      · congr 1
        · split
          · next h => rw [h]
          · next h =>
              rw [h]
              dsimp only
              congr 1
              split
              · next h => rw [h]; rfl
              · next h => rw [h]; rfl
        · split
          · next h => rw [h]; rfl
          · next h => rw [h]; rfl

theorem skipAfter_list_eq (opened : List Bracket) (cs : List Char) :
    skipAfter (.list :: opened) cs =
      match skipSpace cs with
      | [] => .error (.next .unfinishedList [])
      | c :: rest =>
        if c = ',' then skipNested (.list :: opened) rest
        else if c = ']' then skipAfter opened rest
        else .error (.next .noListComma (c :: rest)) := by
  rw [skipAfter]
  split
  · next h => rw [h]
  · next h => rw [h]

theorem skipAfter_object_eq (opened : List Bracket) (cs : List Char) :
    skipAfter (.object :: opened) cs =
      match skipSpace cs with
      | [] => .error (.next .unfinishedObject [])
      | c :: rest =>
        if c = ',' then skipKey rest >>= skipNested (.object :: opened)
        else if c = '\x7d' then skipAfter opened rest
        else .error (.next .noObjectComma (c :: rest)) := by
  rw [skipAfter]
  split
  · next h => rw [h]
  · next h =>
      rw [h]
      dsimp only
      congr 1
      split
      · next h => rw [h]; rfl
      · next h => rw [h]; rfl

section
variable {opened : List Bracket} {cs more rest : List Char} {c : Char}

theorem skipNested_scalar (h : skipSpace cs = c :: more) (hlist : c ≠ '[') (hobject : c ≠ '\x7b')
    (hscalar : skipScalar c more = .ok rest) : skipNested opened cs = skipAfter opened rest := by
  rw [skipNested_eq, h]
  simp only [if_neg hlist, if_neg hobject, hscalar]
  rfl

theorem skipNested_emptyList (h : skipSpace cs = '[' :: more) (hclose : skipSpace more = ']' :: rest) :
    skipNested opened cs = skipAfter opened rest := by
  rw [skipNested_eq, h]
  simp only [if_true, hclose]

theorem skipNested_list (h : skipSpace cs = '[' :: more) (hentry : skipSpace more = c :: rest)
    (hc : c ≠ ']') : skipNested opened cs = skipNested (.list :: opened) more := by
  rw [skipNested_eq, h]
  simp only [if_true, hentry, if_neg hc]

theorem skipNested_emptyObject (h : skipSpace cs = '\x7b' :: more)
    (hclose : skipSpace more = '\x7d' :: rest) : skipNested opened cs = skipAfter opened rest := by
  rw [skipNested_eq, h]
  simp only [Char.reduceEq, if_false, if_true, hclose]

theorem skipNested_object {after : List Char} (h : skipSpace cs = '\x7b' :: more)
    (hentry : skipSpace more = c :: rest) (hc : c ≠ '\x7d') (hkey : skipKey more = .ok after) :
    skipNested opened cs = skipNested (.object :: opened) after := by
  rw [skipNested_eq, h]
  simp only [Char.reduceEq, if_false, if_true, hentry, if_neg hc, hkey]
  rfl

theorem skipAfter_nil : skipAfter [] cs = .ok cs := by
  rw [skipAfter]

theorem skipAfter_list_comma (h : skipSpace cs = ',' :: more) :
    skipAfter (.list :: opened) cs = skipNested (.list :: opened) more := by
  rw [skipAfter_list_eq, h]
  simp only [if_true]

theorem skipAfter_list_close (h : skipSpace cs = ']' :: more) :
    skipAfter (.list :: opened) cs = skipAfter opened more := by
  rw [skipAfter_list_eq, h]
  simp only [Char.reduceEq, if_false, if_true]

theorem skipAfter_object_comma (h : skipSpace cs = ',' :: more) (hkey : skipKey more = .ok rest) :
    skipAfter (.object :: opened) cs = skipNested (.object :: opened) rest := by
  rw [skipAfter_object_eq, h]
  simp only [if_true, hkey]
  rfl

theorem skipAfter_object_close (h : skipSpace cs = '\x7d' :: more) :
    skipAfter (.object :: opened) cs = skipAfter opened more := by
  rw [skipAfter_object_eq, h]
  simp only [Char.reduceEq, if_false, if_true]

end

/-! ## Keys -/

section
variable {g g' key cs rest : List Char} {es : List Element}

theorem readColon_append (hg : Gap g) : readColon (g ++ ':' :: rest) = .ok rest := by
  rw [readColon, skipSpace_append_cons hg (by decide)]
  rfl

theorem skipKey_append (hg : Gap g) (hkey : SpellsElements es key) (hg' : Gap g') :
    skipKey (g ++ '"' :: (key ++ '"' :: (g' ++ ':' :: rest))) = .ok rest := by
  rw [skipKey, skipSpace_append_cons hg (by decide)]
  simp only [if_true, skipString_spells hkey, readColon_append hg']

end

/-! ## Whole values -/

/-- What passing over a part does. In front of a list or an object the bracket is not open yet; after
an entry it is. -/
def Part.Skipped : Part → List Char → Prop
  | .value _, cs => ∀ opened g rest, Gap g → Ends rest →
      skipNested opened (g ++ (cs ++ rest)) = skipAfter opened rest
  | .items true _, cs => ∀ opened g rest, Gap g →
      skipNested opened (g ++ '[' :: (cs ++ ']' :: rest)) = skipAfter opened rest
  | .items false _, cs => ∀ opened rest,
      skipAfter (.list :: opened) (cs ++ ']' :: rest) = skipAfter opened rest
  | .members true _, cs => ∀ opened g rest, Gap g →
      skipNested opened (g ++ '\x7b' :: (cs ++ '\x7d' :: rest)) = skipAfter opened rest
  | .members false _, cs => ∀ opened rest,
      skipAfter (.object :: opened) (cs ++ '\x7d' :: rest) = skipAfter opened rest

theorem skipScalar_spells {d : Document} {c : Char} {more rest : List Char}
    (h : Spells (.value d) (c :: more)) (hlist : c ≠ '[') (hobject : c ≠ '\x7b') (hrest : Ends rest) :
    skipScalar c (more ++ rest) = .ok rest := by
  generalize hcs : c :: more = cs at h
  cases h with
  | null => cases hcs; rfl
  | yes => cases hcs; rfl
  | no => cases hcs; rfl
  | number hn =>
      obtain ⟨c', more', rfl, hc⟩ := hn.exists_cons
      cases hcs
      have hne {e : Char} (he : startsNumber e = false) : c ≠ e := ne_of_test hc he
      rw [skipScalar, if_neg (hne (by decide)), if_neg (hne (by decide)), if_neg (hne (by decide)),
        if_neg (hne (by decide)), if_pos hc]
      exact skipNumber_spells hn hrest
  | text hes =>
      cases hcs
      rw [List.append_assoc]
      exact skipString_spells hes
  | list hds => cases hcs; exact absurd rfl hlist
  | object hms => cases hcs; exact absurd rfl hobject

theorem skipped_scalar {d : Document} {cs : List Char} (h : Spells (.value d) cs)
    (hlist : cs.head? ≠ some '[') (hobject : cs.head? ≠ some '\x7b') : (Part.value d).Skipped cs := by
  intro opened g rest hg hrest
  obtain ⟨c, more, rfl, hc⟩ := h.exists_cons
  have hc' : c ≠ '[' := fun heq => hlist (congrArg some heq)
  have hc'' : c ≠ '\x7b' := fun heq => hobject (congrArg some heq)
  exact skipNested_scalar (skipSpace_value hg hc) hc' hc'' (skipScalar_spells h hc' hc'' hrest)

theorem Numeral.Spells.head?_ne {n : Numeral} {cs : List Char} {e : Char} (h : n.Spells cs)
    (he : startsNumber e = false) : cs.head? ≠ some e := by
  obtain ⟨c, more, rfl, hc⟩ := h.exists_cons
  exact fun heq => ne_of_test hc he (Option.some.inj heq)

/-- Behind every part of the grammar passing over goes on as it would without the part. -/
theorem Spells.skipped {part : Part} {cs : List Char} (h : Spells part cs) : part.Skipped cs := by
  induction h with
  | null => exact skipped_scalar .null (by decide) (by decide)
  | yes => exact skipped_scalar .yes (by decide) (by decide)
  | no => exact skipped_scalar .no (by decide) (by decide)
  | number hn => exact skipped_scalar (.number hn) (hn.head?_ne (by decide)) (hn.head?_ne (by decide))
  | text hes => exact skipped_scalar (.text hes) (by simp) (by simp)
  | list hds ih =>
      -- A list is its items with the brackets around them, as they are passed over together.
      intro opened g rest hg hrest
      simpa using ih opened g rest hg
  | object hms ih =>
      intro opened g rest hg hrest
      simpa using ih opened g rest hg
  | @noItems first g' hg' =>
      have hclose (rest : List Char) : skipSpace (g' ++ ']' :: rest) = ']' :: rest :=
        skipSpace_append_cons hg' (by decide)
      cases first with
      | true =>
          intro opened g rest hg
          exact skipNested_emptyList (skipSpace_append_cons hg (by decide)) (hclose rest)
      | false =>
          intro opened rest
          exact skipAfter_list_close (hclose rest)
  | @item first s cs more d ds hs hd hds ihd ihds =>
      -- With its bracket open, a list is passed over item by item, whatever stood before this one.
      have hvalue (opened : List Bracket) (g rest : List Char) (hg : Gap g) :
          skipNested (.list :: opened) (g ++ (cs ++ (more ++ ']' :: rest))) = skipAfter opened rest := by
        rw [ihd _ g _ hg (hds.ends_items ends_listEnd)]
        exact ihds opened rest
      cases hs with
      | first hs =>
          intro opened g rest hg
          obtain ⟨c, cs', rfl, hc⟩ := hd.exists_cons
          simp only [List.append_assoc, List.cons_append]
          rw [skipNested_list (skipSpace_append_cons hg (by decide))
            (skipSpace_append_cons hs (isSpace_of_opensValue hc)) (ne_of_test hc (by decide))]
          exact hvalue opened s rest hs
      | @later g g' hg hg' =>
          intro opened rest
          simp only [List.append_assoc, List.cons_append]
          rw [skipAfter_list_comma (skipSpace_append_cons hg (by decide))]
          exact hvalue opened g' rest hg'
  | @noMembers first g' hg' =>
      have hclose (rest : List Char) : skipSpace (g' ++ '\x7d' :: rest) = '\x7d' :: rest :=
        skipSpace_append_cons hg' (by decide)
      cases first with
      | true =>
          intro opened g rest hg
          exact skipNested_emptyObject (skipSpace_append_cons hg (by decide)) (hclose rest)
      | false =>
          intro opened rest
          exact skipAfter_object_close (hclose rest)
  | @member first s key g₁ g₂ cs more es d ms hs hkey hg₁ hg₂ hd hms ihd ihms =>
      -- Likewise behind a key and its colon.
      have hvalue (opened : List Bracket) (rest : List Char) :
          skipNested (.object :: opened) (g₂ ++ (cs ++ (more ++ '\x7d' :: rest))) =
            skipAfter opened rest := by
        rw [ihd _ g₂ _ hg₂ (hms.ends_members ends_objectEnd)]
        exact ihms opened rest
      cases hs with
      | first hs =>
          intro opened g rest hg
          simp only [List.append_assoc, List.cons_append]
          rw [skipNested_object (skipSpace_append_cons hg (by decide))
            (skipSpace_append_cons hs (by decide)) (by decide) (skipKey_append hs hkey hg₁)]
          exact hvalue opened rest
      | @later g g' hg hg' =>
          intro opened rest
          simp only [List.append_assoc, List.cons_append]
          rw [skipAfter_object_comma (skipSpace_append_cons hg (by decide))
            (skipKey_append hg' hkey hg₁)]
          exact hvalue opened rest

/-- A value is passed over, whatever it says. -/
theorem skipValue_spells {d : Document} {g cs rest : List Char} (h : Spells (.value d) cs) (hg : Gap g)
    (hrest : Ends rest) : skipValue (g ++ (cs ++ rest)) = .ok rest := by
  rw [skipValue, h.skipped [] g rest hg hrest, skipAfter_nil]

end UmlSkeleton.Json

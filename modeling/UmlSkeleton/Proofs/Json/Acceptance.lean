import Mathlib.Data.List.TakeWhile
import UmlSkeleton.Proofs.Json.Meaning

/-!
# What is read was spelled

`Shape.reads` says what readers do with a text that spells a document. Here is the way back: whatever a
reader takes from its input spells a document, so a text that is accepted spells one
(`Shape.exists_spelledBy`), and nothing else than the meaning of documents has to be looked at to know
what readers do with all texts.

Each small reader gives back the text that it has passed over, with a proof that the grammar allows it.
Passing over a value goes through open brackets; what is left to do for them is said in front of what
follows the value (`spelled_of_skipNested`), and the proof is by the length of the input.
-/

namespace UmlSkeleton.Json

/-! ## Gaps -/

section
variable {cs rest : List Char} {c : Char}

theorem Gap.append {g g' : List Char} (h : Gap g) (h' : Gap g') : Gap (g ++ g') := by
  intro c hc
  rcases List.mem_append.mp hc with hc | hc
  · exact h c hc
  · exact h' c hc

/-- Before the first character that is no white space there is a gap. -/
theorem exists_gap_of_skipSpace (h : skipSpace cs = rest) : ∃ g, Gap g ∧ cs = g ++ rest := by
  refine ⟨cs.takeWhile isSpace, fun c hc => List.mem_takeWhile_imp hc, ?_⟩
  rw [← h]
  exact List.takeWhile_append_dropWhile.symm

end

/-! ## Numerals -/

namespace Numeral

section
variable {cs ds rest : List Char}

theorem digits_spanDigits (cs : List Char) : Digits (spanDigits cs).1 :=
  fun _ hc => List.mem_takeWhile_imp hc

theorem eq_append_of_spanDigits (h : spanDigits cs = (ds, rest)) : Digits ds ∧ cs = ds ++ rest := by
  have hdigits := digits_spanDigits cs
  have happend := append_of_spanDigits cs
  rw [h] at hdigits happend
  exact ⟨hdigits, happend.symm⟩

theorem eq_append_minus (cs : List Char) :
    cs = (if (minus cs).1 then ['-'] else []) ++ (minus cs).2 := by
  unfold minus
  split <;> rfl

theorem wholeDigits_of_scanWhole (h : scanWhole cs = .ok (ds, rest)) :
    WholeDigits ds ∧ cs = ds ++ rest := by
  unfold scanWhole at h
  split at h
  · cases h
  · next c more =>
      split at h
      · next hc =>
          subst hc
          split at h
          · cases h
            exact ⟨.zero, rfl⟩
          · split at h
            · cases h
            · cases h
              exact ⟨.zero, rfl⟩
      · next hc =>
          split at h
          · next hd =>
              cases h
              exact ⟨.digits hc hd (digits_spanDigits more), congrArg (c :: ·) (append_of_spanDigits more).symm⟩
          · cases h

theorem spellsFraction_of_scanFraction (h : scanFraction cs = .ok (ds, rest)) :
    ∃ f, SpellsFraction ds f ∧ cs = f ++ rest := by
  unfold scanFraction at h
  split at h
  · split at h
    · cases h
    · next digits after hne hspan =>
        cases h
        obtain ⟨hdigits, rfl⟩ := eq_append_of_spanDigits hspan
        exact ⟨_, .some hdigits hne, rfl⟩
  · cases h
    exact ⟨[], .none, rfl⟩

theorem spellsSign_powerSign (cs : List Char) :
    ∃ sign, SpellsSign (powerSign cs).1 sign ∧ cs = sign ++ (powerSign cs).2 := by
  unfold powerSign
  split
  · exact ⟨_, .plus, rfl⟩
  · exact ⟨_, .minus, rfl⟩
  · exact ⟨_, .none, rfl⟩

theorem spellsPower_of_scanPower {power : Option (Bool × List Char)}
    (h : scanPower cs = .ok (power, rest)) : ∃ p, SpellsPower power p ∧ cs = p ++ rest := by
  match cs with
  | [] =>
      cases h
      exact ⟨[], .none, rfl⟩
  | c :: cs =>
      rw [scanPower] at h
      split at h
      · next hc =>
          split at h
          · cases h
          · next digits after hne hspan =>
              cases h
              obtain ⟨hdigits, hafter⟩ := eq_append_of_spanDigits hspan
              obtain ⟨sign, hsign, hcs⟩ := spellsSign_powerSign cs
              refine ⟨_, .some hc hsign hdigits hne, ?_⟩
              rw [List.cons_append, List.cons_append, List.append_assoc, ← hafter, ← hcs]
      · cases h
        exact ⟨[], .none, rfl⟩

/-- What is split off spells the numeral. -/
theorem spells_of_scan {n : Numeral} (h : scan cs = .ok (n, rest)) :
    ∃ text, n.Spells text ∧ cs = text ++ rest := by
  rw [scan] at h
  obtain ⟨⟨whole, afterWhole⟩, hw, h⟩ := exists_of_bind_eq_ok h
  obtain ⟨⟨fraction, afterFraction⟩, hf, h⟩ := exists_of_bind_eq_ok h
  obtain ⟨⟨power, after⟩, hp, h⟩ := exists_of_bind_eq_ok h
  cases h
  obtain ⟨hwhole, hcs⟩ := wholeDigits_of_scanWhole hw
  obtain ⟨f, hfraction, rfl⟩ := spellsFraction_of_scanFraction hf
  obtain ⟨p, hpower, rfl⟩ := spellsPower_of_scanPower hp
  refine ⟨_, .intro hwhole hfraction hpower, ?_⟩
  rw [List.append_assoc, List.append_assoc, List.append_assoc, ← hcs, ← eq_append_minus]

end

end Numeral

section
variable {cs rest : List Char}

theorem spells_of_readNumber {number : Numeral.Number} (h : readNumber cs = .ok (number, rest)) :
    ∃ n text, Numeral.Spells n text ∧ cs = text ++ rest := by
  rw [readNumber] at h
  split at h
  · cases h
  · cases h
  · next hscan =>
      split at h
      · cases h
        exact ⟨_, Numeral.spells_of_scan hscan⟩
      · cases h

theorem spells_of_skipNumber (h : skipNumber cs = .ok rest) :
    ∃ n text, Numeral.Spells n text ∧ cs = text ++ rest := by
  rw [skipNumber] at h
  split at h
  · cases h
  · next hscan =>
      cases h
      exact ⟨_, Numeral.spells_of_scan hscan⟩

/-! ## Strings -/

theorem SpellsElements.append {es es' : List Element} {text text' : List Char}
    (h : SpellsElements es text) (h' : SpellsElements es' text') :
    SpellsElements (es ++ es') (text ++ text') := by
  induction h with
  | nil => exact h'
  | plain hquote hslash hcontrol _ ih => exact .plain hquote hslash hcontrol ih
  | short hx _ ih => exact .short hx ih
  | unit hu _ ih => exact .unit hu ih

theorem quad_of_readUnit {u : Nat} (h : readUnit cs = .ok (u, rest)) :
    ∃ a b c d, hexQuad? a b c d = some u ∧ cs = a :: b :: c :: d :: rest := by
  unfold readUnit at h
  split at h
  · split at h
    · next hu =>
        cases h
        exact ⟨_, _, _, _, hu, rfl⟩
    · cases h
  · cases h

/-- The second half of a pair is a unit. -/
theorem spells_of_readTrail {lead : Nat} {x : Char} (h : readTrail lead cs = .ok (x, rest)) :
    ∃ es text, SpellsElements es text ∧ cs = text ++ rest := by
  unfold readTrail at h
  split at h
  · cases h
  · split at h
    · next hc =>
        subst hc
        split at h
        · cases h
        · split at h
          · next hd =>
              subst hd
              split at h
              · cases h
              · next hunit =>
                  obtain ⟨a, b, c, d, hquad, rfl⟩ := quad_of_readUnit hunit
                  split at h
                  · obtain ⟨-, rfl⟩ := Prod.mk.inj (Except.ok.inj h)
                    exact ⟨_, _, .unit hquad .nil, rfl⟩
                  · cases h
          · cases h
    · cases h

/-- Behind a backslash stands a short escape, a unit, or a pair of units. -/
theorem spells_of_readEscape {x : Char} (h : readEscape cs = .ok (x, rest)) :
    ∃ es text, SpellsElements es ('\\' :: text) ∧ cs = text ++ rest := by
  unfold readEscape at h
  split at h
  · cases h
  · split at h
    · next hc =>
        subst hc
        split at h
        · cases h
        · next hunit =>
            obtain ⟨a, b, c, d, hquad, rfl⟩ := quad_of_readUnit hunit
            split at h
            · cases h
            · split at h
              · obtain ⟨es, text, htrail, rfl⟩ := spells_of_readTrail h
                exact ⟨_, _, .unit hquad htrail, rfl⟩
              · cases h
                exact ⟨_, _, .unit hquad .nil, rfl⟩
    · split at h
      · next hx =>
          cases h
          exact ⟨_, _, .short hx .nil, rfl⟩
      · cases h

theorem spells_of_skipEscape (h : skipEscape cs = .ok rest) :
    ∃ es text, SpellsElements es ('\\' :: text) ∧ cs = text ++ rest := by
  unfold skipEscape at h
  split at h
  · cases h
  · split at h
    · next hc =>
        subst hc
        split at h
        · cases h
        · next hunit =>
            obtain ⟨a, b, c, d, hquad, rfl⟩ := quad_of_readUnit hunit
            cases h
            exact ⟨_, _, .unit hquad .nil, rfl⟩
    · split at h
      · next hx =>
          cases h
          exact ⟨_, _, .short hx .nil, rfl⟩
      · cases h

/-- What is read up to a quote spells a string. -/
theorem spells_of_readStringAfter {read : List Char} {s : String}
    (h : readStringAfter read cs = .ok (s, rest)) :
    ∃ es text, SpellsElements es text ∧ cs = text ++ '"' :: rest := by
  fun_induction readStringAfter read cs with
  | case1 => cases h
  | case2 =>
      cases h
      exact ⟨[], [], .nil, rfl⟩
  | case3 => cases h
  | case4 _ _ _ _ hescape _ ih =>
      obtain ⟨es, text, hes, rfl⟩ := spells_of_readEscape hescape
      obtain ⟨es', text', hes', rfl⟩ := ih h
      exact ⟨_, _, hes.append hes', by simp⟩
  | case5 => cases h
  | case6 read c more hquote hslash hcontrol ih =>
      obtain ⟨es, text, hes, rfl⟩ := ih h
      exact ⟨_, _, .plain hquote hslash (by simpa using hcontrol) hes, rfl⟩

theorem spells_of_readString {s : String} (h : readString cs = .ok (s, rest)) :
    ∃ es text, SpellsElements es text ∧ cs = text ++ '"' :: rest :=
  spells_of_readStringAfter h

theorem spells_of_skipString (h : skipString cs = .ok rest) :
    ∃ es text, SpellsElements es text ∧ cs = text ++ '"' :: rest := by
  fun_induction skipString cs with
  | case1 => cases h
  | case2 =>
      cases h
      exact ⟨[], [], .nil, rfl⟩
  | case3 => cases h
  | case4 _ _ hescape _ ih =>
      obtain ⟨es, text, hes, rfl⟩ := spells_of_skipEscape hescape
      obtain ⟨es', text', hes', rfl⟩ := ih h
      exact ⟨_, _, hes.append hes', by simp⟩
  | case5 => cases h
  | case6 c more hquote hslash hcontrol ih =>
      obtain ⟨es, text, hes, rfl⟩ := ih h
      exact ⟨_, _, .plain hquote hslash (by simpa using hcontrol) hes, rfl⟩

end

/-! ## Values that are passed over -/

/-- Between `cs` and `rest` a value is spelled, perhaps with a gap before it. -/
def Spelled (cs rest : List Char) : Prop :=
  ∃ d g text, Gap g ∧ Spells (.value d) text ∧ cs = g ++ (text ++ rest)

section
variable {cs more rest : List Char} {c : Char}

/-- What stands behind a gap is spelled with the gap. -/
theorem Spelled.of_skipSpace {d : Document} {text : List Char} (hskip : skipSpace cs = c :: more)
    (h : Spells (.value d) text) (heq : c :: more = text ++ rest) : Spelled cs rest := by
  obtain ⟨g, hg, rfl⟩ := exists_gap_of_skipSpace hskip
  exact ⟨d, g, text, hg, h, by rw [heq]⟩

theorem spells_of_skipScalar (h : skipScalar c cs = .ok rest) :
    ∃ d text, Spells (.value d) text ∧ c :: cs = text ++ rest := by
  unfold skipScalar at h
  split at h
  · next hc =>
      subst hc
      exact ⟨_, _, .null, congrArg _ (eq_append_of_readLetters h)⟩
  · split at h
    · next hc =>
        subst hc
        exact ⟨_, _, .yes, congrArg _ (eq_append_of_readLetters h)⟩
    · split at h
      · next hc =>
          subst hc
          exact ⟨_, _, .no, congrArg _ (eq_append_of_readLetters h)⟩
      · split at h
        · next hc =>
            subst hc
            obtain ⟨es, text, hes, rfl⟩ := spells_of_skipString h
            exact ⟨_, _, .text hes, by simp⟩
        · split at h
          · obtain ⟨n, text, hn, heq⟩ := spells_of_skipNumber h
            exact ⟨_, _, .number hn, heq⟩
          · cases h

theorem eq_append_of_readColon (h : readColon cs = .ok rest) : ∃ g, Gap g ∧ cs = g ++ ':' :: rest := by
  unfold readColon at h
  split at h
  · cases h
  · next hskip =>
      split at h
      · next hc =>
          subst hc
          cases h
          exact exists_gap_of_skipSpace hskip
      · cases h

theorem spells_of_skipKey (h : skipKey cs = .ok rest) :
    ∃ g es key g', Gap g ∧ SpellsElements es key ∧ Gap g' ∧
      cs = g ++ '"' :: (key ++ '"' :: (g' ++ ':' :: rest)) := by
  unfold skipKey at h
  split at h
  · cases h
  · next hskip =>
      split at h
      · next hc =>
          subst hc
          split at h
          · cases h
          · next hstring =>
              obtain ⟨g, hg, rfl⟩ := exists_gap_of_skipSpace hskip
              obtain ⟨es, key, hes, rfl⟩ := spells_of_skipString hstring
              obtain ⟨g', hg', rfl⟩ := eq_append_of_readColon h
              exact ⟨g, es, key, g', hg, hes, hg', rfl⟩
      · cases h

theorem Spelled.length_le (h : Spelled cs rest) : rest.length ≤ cs.length := by
  obtain ⟨d, g, text, -, -, rfl⟩ := h
  rw [List.length_append, List.length_append]
  omega

end

mutual

/-- Passing over a value and the containers around it passes over a spelled value first. -/
theorem spelled_of_skipNested {opened : List Bracket} {cs rest : List Char}
    (h : skipNested opened cs = .ok rest) :
    ∃ after, Spelled cs after ∧ skipAfter opened after = .ok rest := by
  rw [skipNested_eq] at h
  split at h
  · cases h
  · next c more hskip =>
    have hlt := length_lt_of_skipSpace hskip
    split at h
    · next hc =>
      subst hc
      split at h
      · cases h
      · next hskip' =>
        split at h
        · next hd =>
          subst hd
          obtain ⟨g, hg, rfl⟩ := exists_gap_of_skipSpace hskip'
          exact ⟨_, .of_skipSpace hskip (.list (.noItems hg)) (by simp), h⟩
        · -- The first item, and the others up to the bracket.
          obtain ⟨after, hfirst, hafter⟩ := spelled_of_skipNested h
          have := hfirst.length_le
          obtain ⟨ds, text, after', hds, rfl, hafter'⟩ := exists_items_of_skipAfter hafter
          obtain ⟨d, g, dtext, hg, hd, rfl⟩ := hfirst
          exact ⟨after', .of_skipSpace hskip (.list (.item (.first hg) hd hds)) (by simp), hafter'⟩
    · split at h
      · next hc =>
        subst hc
        split at h
        · cases h
        · next hskip' =>
          split at h
          · next hd =>
            subst hd
            obtain ⟨g, hg, rfl⟩ := exists_gap_of_skipSpace hskip'
            exact ⟨_, .of_skipSpace hskip (.object (.noMembers hg)) (by simp), h⟩
          · -- The key and the value of the first member, and the others up to the brace.
            obtain ⟨afterKey, hkey, h⟩ := exists_of_bind_eq_ok h
            have := length_lt_of_skipKey hkey
            obtain ⟨after, hfirst, hafter⟩ := spelled_of_skipNested h
            have := hfirst.length_le
            obtain ⟨ms, text, after', hms, rfl, hafter'⟩ := exists_members_of_skipAfter hafter
            obtain ⟨g, es, key, g', hg, hes, hg', rfl⟩ := spells_of_skipKey hkey
            obtain ⟨d, g'', dtext, hg'', hd, rfl⟩ := hfirst
            exact ⟨after', .of_skipSpace hskip (.object (.member (.first hg) hes hg' hg'' hd hms))
              (by simp), hafter'⟩
      · obtain ⟨after, hscalar, hafter⟩ := exists_of_bind_eq_ok h
        obtain ⟨d, text, hd, heq⟩ := spells_of_skipScalar hscalar
        exact ⟨after, .of_skipSpace hskip hd heq, hafter⟩
termination_by cs.length

theorem exists_items_of_skipAfter {opened : List Bracket} {cs rest : List Char}
    (h : skipAfter (.list :: opened) cs = .ok rest) :
    ∃ ds text after, Spells (.items false ds) text ∧ cs = text ++ ']' :: after ∧
      skipAfter opened after = .ok rest := by
  rw [skipAfter_list_eq] at h
  split at h
  · cases h
  · next c more hskip =>
    have hlt := length_lt_of_skipSpace hskip
    obtain ⟨g, hg, hcs⟩ := exists_gap_of_skipSpace hskip
    split at h
    · next hc =>
      subst hc
      obtain ⟨after, hfirst, hafter⟩ := spelled_of_skipNested h
      have := hfirst.length_le
      obtain ⟨ds, text, after', hds, rfl, hafter'⟩ := exists_items_of_skipAfter hafter
      obtain ⟨d, g', dtext, hg', hd, rfl⟩ := hfirst
      exact ⟨d :: ds, _, after', .item (.later hg hg') hd hds, by simp [hcs], hafter'⟩
    · split at h
      · next hc =>
        subst hc
        exact ⟨[], g, more, .noItems hg, hcs, h⟩
      · cases h
termination_by cs.length

theorem exists_members_of_skipAfter {opened : List Bracket} {cs rest : List Char}
    (h : skipAfter (.object :: opened) cs = .ok rest) :
    ∃ ms text after, Spells (.members false ms) text ∧ cs = text ++ '\x7d' :: after ∧
      skipAfter opened after = .ok rest := by
  rw [skipAfter_object_eq] at h
  split at h
  · cases h
  · next c more hskip =>
    have hlt := length_lt_of_skipSpace hskip
    obtain ⟨g, hg, hcs⟩ := exists_gap_of_skipSpace hskip
    split at h
    · next hc =>
      subst hc
      obtain ⟨afterKey, hkey, h⟩ := exists_of_bind_eq_ok h
      have := length_lt_of_skipKey hkey
      obtain ⟨after, hfirst, hafter⟩ := spelled_of_skipNested h
      have := hfirst.length_le
      obtain ⟨ms, text, after', hms, rfl, hafter'⟩ := exists_members_of_skipAfter hafter
      obtain ⟨g', es, key, g'', hg', hes, hg'', rfl⟩ := spells_of_skipKey hkey
      obtain ⟨d, g₃, dtext, hg₃, hd, rfl⟩ := hfirst
      exact ⟨(textOf es, d) :: ms, _, after', .member (.later hg hg') hes hg'' hg₃ hd hms,
        by simp [hcs], hafter'⟩
    · split at h
      · next hc =>
        subst hc
        exact ⟨[], g, more, .noMembers hg, hcs, h⟩
      · cases h
termination_by cs.length

end

theorem spelled_of_skipValue {cs rest : List Char} (h : skipValue cs = .ok rest) : Spelled cs rest := by
  obtain ⟨after, hspelled, hafter⟩ := spelled_of_skipNested h
  rw [skipAfter_nil] at hafter
  cases hafter
  exact hspelled

/-! ## Readers that take spelled values only -/

/-- Whatever the reader takes was spelled. -/
def Reader.Accepts (reader : Reader α) : Prop :=
  ∀ {cs rest : List Char} {a : α}, reader.run cs = .ok (a, rest) → Spelled cs rest

/-- Behind the key there is a colon and a spelled value. -/
def MemberReader.Accepts (member : MemberReader σ) : Prop :=
  ∀ {key : String} {slots found : σ} {cs rest : List Char}, member.run key slots cs = .ok (found, rest) →
    ∃ g more, Gap g ∧ cs = g ++ ':' :: more ∧ Spelled more rest

/-- The fields that are taken were spelled as the items of a list, up to its end. -/
def FieldsReader.Accepts (listed : FieldsReader β) : Prop :=
  ∀ {index : Nat} {first : Bool} {cs rest : List Char} {b : β},
    listed.run index first cs = .ok (b, rest) →
      ∃ ds text, Spells (.items first ds) text ∧ cs = text ++ ']' :: rest

/-! ### Scalars -/

section
variable {cs rest : List Char}

theorem spelled_of_readInteger {n : Int64} (h : readInteger cs = .ok (n, rest)) : Spelled cs rest := by
  unfold readInteger at h
  split at h
  · cases h
  · next hskip =>
      split at h
      · split at h
        · cases h
        · next hread =>
            obtain ⟨n, text, hn, heq⟩ := spells_of_readNumber hread
            split at h
            · obtain ⟨-, rfl⟩ := Prod.mk.inj (Except.ok.inj h)
              exact .of_skipSpace hskip (.number hn) heq
            · cases h
        · cases h
      · cases h

theorem spelled_of_readText {s : String} (h : readText cs = .ok (s, rest)) : Spelled cs rest := by
  unfold readText at h
  split at h
  · cases h
  · next hskip =>
      split at h
      · next hc =>
          subst hc
          obtain ⟨es, text, hes, rfl⟩ := spells_of_readString h
          exact .of_skipSpace hskip (.text hes) (by simp)
      · cases h

theorem spelled_of_readOptionalText {s : Option String} (h : readOptionalText cs = .ok (s, rest)) :
    Spelled cs rest := by
  unfold readOptionalText at h
  split at h
  · cases h
  · next hskip =>
      split at h
      · next hc =>
          subst hc
          split at h
          · cases h
          · next hletters =>
              cases h
              exact .of_skipSpace hskip .null (congrArg _ (eq_append_of_readLetters hletters))
      · split at h
        · cases h
        · next htext =>
            cases h
            -- The text is read again from behind the gap.
            obtain ⟨g, hg, rfl⟩ := exists_gap_of_skipSpace hskip
            obtain ⟨d, g', text, hg', hd, heq⟩ := spelled_of_readText htext
            exact ⟨d, g ++ g', text, hg.append hg', hd, by rw [heq, List.append_assoc]⟩

end

/-! ### Lists -/

section
variable {first : Bool} {g s cs rest : List Char}

theorem Separator.append_gap (hs : Separator first s) (hg : Gap g) : Separator first (s ++ g) := by
  cases hs with
  | first hg' => exact .first (hg'.append hg)
  | later hg' hg'' =>
      rw [List.append_assoc, List.cons_append]
      exact .later hg' (hg''.append hg)

theorem Separator.gap_append (hg : Gap g) (hs : Separator first s) : Separator first (g ++ s) := by
  cases hs with
  | first hg' => exact .first (hg.append hg')
  | later hg' hg'' =>
      rw [← List.append_assoc]
      exact .later (hg.append hg') hg''

theorem Spells.gap_append_items {ds : List Document} {text : List Char} (hg : Gap g)
    (h : Spells (.items first ds) text) : Spells (.items first ds) (g ++ text) := by
  cases h with
  | noItems hg' => exact .noItems (hg.append hg')
  | item hs hd hds =>
      rw [← List.append_assoc]
      exact .item (hs.gap_append hg) hd hds

/-- A spelled value behind a separator, and the items after it. -/
theorem Spelled.items {ds : List Document} {more text : List Char} (hs : Separator first s)
    (h : Spelled more (text ++ rest)) (hds : Spells (.items false ds) text) :
    ∃ d text', Spells (.items first (d :: ds)) text' ∧ s ++ more = text' ++ rest := by
  obtain ⟨d, g, dtext, hg, hd, rfl⟩ := h
  exact ⟨d, _, .item (hs.append_gap hg) hd hds, by simp⟩

theorem eq_append_of_nextItem_close (h : nextItem first cs = .ok (.close rest)) :
    ∃ g more, Gap g ∧ cs = g ++ rest ∧ rest = ']' :: more := by
  unfold nextItem at h
  split at h
  · cases h
  · next c more hskip =>
      obtain ⟨g, hg, hcs⟩ := exists_gap_of_skipSpace hskip
      split at h
      · next hc =>
          subst hc
          cases h
          exact ⟨g, more, hg, hcs, rfl⟩
      · split at h
        · cases h
        · split at h
          · split at h
            · cases h
            · split at h <;> cases h
          · cases h

theorem eq_append_of_nextItem_entry (h : nextItem first cs = .ok (.entry rest)) :
    ∃ s, Separator first s ∧ cs = s ++ rest := by
  unfold nextItem at h
  split at h
  · cases h
  · next hskip =>
      obtain ⟨g, hg, hcs⟩ := exists_gap_of_skipSpace hskip
      split at h
      · cases h
      · split at h
        · next hfirst =>
            subst hfirst
            cases h
            exact ⟨g, .first hg, hcs⟩
        · next hfirst =>
            rw [Bool.not_eq_true] at hfirst
            subst hfirst
            split at h
            · next hc =>
                subst hc
                split at h
                · cases h
                · next hskip' =>
                    split at h
                    · cases h
                    · cases h
                      obtain ⟨g', hg', rfl⟩ := exists_gap_of_skipSpace hskip'
                      exact ⟨_, .later hg hg', by simp [hcs]⟩
            · cases h

end

theorem exists_items_of_readItems {item : Reader α} (hitem : item.Accepts) {first : Bool}
    {read items : List α} {cs rest : List Char} (h : readItems item first read cs = .ok (items, rest)) :
    ∃ ds text, Spells (.items first ds) text ∧ cs = text ++ ']' :: rest := by
  fun_induction readItems item first read cs with
  | case1 => cases h
  | case2 _ _ _ _ hnext =>
      obtain ⟨g, more, hg, rfl, rfl⟩ := eq_append_of_nextItem_close hnext
      cases h
      exact ⟨[], g, .noItems hg, rfl⟩
  | case3 => cases h
  | case4 _ _ _ _ hnext _ _ hrun ih =>
      obtain ⟨s, hs, rfl⟩ := eq_append_of_nextItem_entry hnext
      obtain ⟨ds, text, hds, rfl⟩ := ih h
      obtain ⟨d, text', hitems, heq⟩ := Spelled.items hs (hitem hrun) hds
      exact ⟨d :: ds, text', hitems, heq⟩

theorem spelled_of_readList {item : Reader α} (hitem : item.Accepts) {items : List α}
    {cs rest : List Char} (h : readList item cs = .ok (items, rest)) : Spelled cs rest := by
  unfold readList at h
  split at h
  · cases h
  · next hskip =>
      split at h
      · next hc =>
          subst hc
          obtain ⟨ds, text, hds, rfl⟩ := exists_items_of_readItems hitem h
          exact .of_skipSpace hskip (.list hds) (by simp)
      · cases h

/-! ### Records -/

section
variable {first : Bool} {cs rest : List Char}

theorem eq_append_of_nextKey_close (h : nextKey first cs = .ok (.close rest)) :
    ∃ g more, Gap g ∧ cs = g ++ rest ∧ rest = '\x7d' :: more := by
  unfold nextKey at h
  split at h
  · cases h
  · next c more hskip =>
      obtain ⟨g, hg, hcs⟩ := exists_gap_of_skipSpace hskip
      split at h
      · next hc =>
          subst hc
          cases h
          exact ⟨g, more, hg, hcs, rfl⟩
      · split at h
        · split at h <;> cases h
        · split at h
          · split at h
            · cases h
            · split at h
              · cases h
              · split at h <;> cases h
          · cases h

theorem eq_append_of_nextKey_entry (h : nextKey first cs = .ok (.entry rest)) :
    ∃ s, Separator first s ∧ cs = s ++ '"' :: rest := by
  unfold nextKey at h
  split at h
  · cases h
  · next hskip =>
      obtain ⟨g, hg, hcs⟩ := exists_gap_of_skipSpace hskip
      split at h
      · cases h
      · split at h
        · next hfirst =>
            subst hfirst
            split at h
            · next hc =>
                subst hc
                cases h
                exact ⟨g, .first hg, hcs⟩
            · cases h
        · next hfirst =>
            rw [Bool.not_eq_true] at hfirst
            subst hfirst
            split at h
            · next hc =>
                subst hc
                split at h
                · cases h
                · next hskip' =>
                    split at h
                    · next hd =>
                        subst hd
                        cases h
                        obtain ⟨g', hg', rfl⟩ := exists_gap_of_skipSpace hskip'
                        exact ⟨_, .later hg hg', by simp [hcs]⟩
                    · split at h <;> cases h
            · cases h

end

theorem accepts_unknown : MemberReader.unknown.Accepts := by
  intro key slots found cs rest h
  unfold MemberReader.unknown at h
  dsimp only at h
  split at h
  · cases h
  · next hcolon =>
      obtain ⟨g, hg, rfl⟩ := eq_append_of_readColon hcolon
      split at h
      · cases h
      · next hskip =>
          cases h
          exact ⟨g, _, hg, rfl, spelled_of_skipValue hskip⟩

theorem accepts_field {name : String} {value : Reader α} {others : MemberReader σ}
    (hvalue : value.Accepts) (hothers : others.Accepts) :
    (MemberReader.field name value others).Accepts := by
  intro key slots found cs rest h
  unfold MemberReader.field at h
  dsimp only at h
  split at h
  · split at h
    · cases h
    · split at h
      · cases h
      · next hcolon =>
          obtain ⟨g, hg, rfl⟩ := eq_append_of_readColon hcolon
          split at h
          · cases h
          · next hrun =>
              cases h
              exact ⟨g, _, hg, rfl, hvalue hrun⟩
  · split at h
    · cases h
    · next hrun =>
        cases h
        exact hothers hrun

theorem exists_members_of_readMembers {member : MemberReader σ} (hmember : member.Accepts)
    {first : Bool} {slots found : σ} {cs rest : List Char}
    (h : readMembers member first slots cs = .ok (found, rest)) :
    ∃ ms text, Spells (.members first ms) text ∧ cs = text ++ '\x7d' :: rest := by
  fun_induction readMembers member first slots cs with
  | case1 => cases h
  | case2 _ _ _ _ hnext =>
      obtain ⟨g, more, hg, rfl, rfl⟩ := eq_append_of_nextKey_close hnext
      cases h
      exact ⟨[], g, .noMembers hg, rfl⟩
  | case3 => cases h
  | case4 => cases h
  | case5 _ _ _ _ hnext _ _ hkey _ _ hrun ih =>
      obtain ⟨s, hs, rfl⟩ := eq_append_of_nextKey_entry hnext
      obtain ⟨es, key, hes, rfl⟩ := spells_of_readString hkey
      obtain ⟨ms, text, hms, rfl⟩ := ih h
      obtain ⟨g, more, hg, rfl, d, g', dtext, hg', hd, rfl⟩ := hmember hrun
      exact ⟨(textOf es, d) :: ms, _, .member hs hes hg hg' hd hms, by simp⟩

theorem accepts_done : FieldsReader.done.Accepts := by
  intro index first cs rest b h
  unfold FieldsReader.done at h
  dsimp only at h
  split at h
  · cases h
  · next hskip =>
      split at h
      · next hc =>
          subst hc
          cases h
          obtain ⟨g, hg, rfl⟩ := exists_gap_of_skipSpace hskip
          exact ⟨[], g, .noItems hg, rfl⟩
      · split at h
        · split at h
          · cases h
          · split at h <;> cases h
        · cases h

theorem accepts_fieldAnd {expected : String} {empty : Option α} {value : Reader α}
    {others : FieldsReader β} (hvalue : value.Accepts) (hothers : others.Accepts) :
    (FieldsReader.field expected empty value others).Accepts := by
  intro index first cs rest b h
  unfold FieldsReader.field at h
  dsimp only at h
  split at h
  · cases h
  · next hnext =>
      -- The list has ended, and the other fields find the same end.
      obtain ⟨g, more, hg, rfl, -⟩ := eq_append_of_nextItem_close hnext
      split at h
      · cases h
      · split at h
        · cases h
        · next hrun =>
            cases h
            obtain ⟨ds, text, hds, rfl⟩ := hothers hrun
            exact ⟨ds, g ++ text, hds.gap_append_items hg, by simp⟩
  · next hnext =>
      obtain ⟨s, hs, rfl⟩ := eq_append_of_nextItem_entry hnext
      split at h
      · cases h
      · next hfirst =>
          split at h
          · cases h
          · next hrun =>
              cases h
              obtain ⟨ds, text, hds, rfl⟩ := hothers hrun
              obtain ⟨d, text', hitems, heq⟩ := Spelled.items hs (hvalue hfirst) hds
              exact ⟨d :: ds, text', hitems, heq⟩

theorem spelled_of_readRecord {name : String} {fields : Fields} {member : MemberReader fields.Slots}
    {listed : FieldsReader fields.Values} (hmember : member.Accepts) (hlisted : listed.Accepts)
    {values : fields.Values} {cs rest : List Char}
    (h : readRecord name fields member listed cs = .ok (values, rest)) : Spelled cs rest := by
  unfold readRecord at h
  split at h
  · cases h
  · next hskip =>
      split at h
      · next hc =>
          subst hc
          split at h
          · cases h
          · next hmembers =>
              obtain ⟨ms, text, hms, rfl⟩ := exists_members_of_readMembers hmember hmembers
              split at h
              · cases h
              · cases h
                exact .of_skipSpace hskip (.object hms) (by simp)
      · split at h
        · next hc =>
            subst hc
            obtain ⟨ds, text, hds, rfl⟩ := hlisted h
            exact .of_skipSpace hskip (.list hds) (by simp)
        · cases h

/-! ### All shapes -/

mutual

/-- The reader of a shape takes spelled values only. -/
theorem Shape.accepts : (shape : Shape) → shape.reader.Accepts
  | .integer => fun h => spelled_of_readInteger h
  | .text => fun h => spelled_of_readText h
  | .optionalText => fun h => spelled_of_readOptionalText h
  | .list item => fun h => spelled_of_readList item.accepts h
  | .record _ fields => fun h => spelled_of_readRecord fields.accepts_member (fields.accepts_list _) h

theorem Fields.accepts_member : (fields : Fields) → fields.memberReader.Accepts
  | .nil => accepts_unknown
  | .cons _ shape rest => accepts_field shape.accepts rest.accepts_member

theorem Fields.accepts_list (expected : String) : (fields : Fields) → (fields.listReader expected).Accepts
  | .nil => accepts_done
  | .cons _ shape rest => accepts_fieldAnd shape.accepts (rest.accepts_list expected)

end

/-! ## Documents -/

/-- A text that is read as a value spells a document. -/
theorem Shape.exists_spelledBy {shape : Shape} {text : String} {value : shape.Value}
    (h : shape.reader.document text = .ok value) : ∃ d : Document, d.SpelledBy text := by
  unfold Reader.document at h
  dsimp only at h
  split at h
  · cases h
  · next hrun =>
      split at h
      · next hskip =>
          obtain ⟨d, g, cs, hg, hd, heq⟩ := shape.accepts hrun
          obtain ⟨g', hg', rfl⟩ := exists_gap_of_skipSpace hskip
          exact ⟨d, g, cs, _, hg, hd, hg', by rw [heq, List.append_nil]⟩
      · cases h

end UmlSkeleton.Json

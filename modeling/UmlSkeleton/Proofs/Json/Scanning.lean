import UmlSkeleton.Proofs.Json.Grammar

/-!
# Reading gaps, numerals and strings

What the readers of the smallest parts do in front of a spelled part and whatever follows it.

* `skipSpace_append` — gaps are passed over.
* `scan_spells` — a numeral is split off as it is spelled, unless what follows goes on with it (`Ends`).
* `toOption_readString`, `skipString_spells` — a string is read to its text, if it has one, and passed
  over in any case.
-/

namespace UmlSkeleton.Json

/-! ## Gaps -/

/-- What holds of the four characters holds of all white space. -/
theorem forall_space {p : Char → Prop} (h : p ' ' ∧ p '\t' ∧ p '\n' ∧ p '\r') {c : Char}
    (hc : isSpace c = true) : p c := by
  obtain ⟨hblank, htab, hnewline, hreturn⟩ := h
  simp only [isSpace, Bool.or_eq_true, beq_iff_eq] at hc
  rcases hc with ((rfl | rfl) | rfl) | rfl
  · exact hblank
  · exact htab
  · exact hnewline
  · exact hreturn

theorem skipSpace_append {g cs : List Char} (hg : Gap g) : skipSpace (g ++ cs) = skipSpace cs :=
  List.dropWhile_append_of_pos hg

theorem skipSpace_cons {c : Char} {cs : List Char} (h : isSpace c = false) :
    skipSpace (c :: cs) = c :: cs := by
  rw [skipSpace, List.dropWhile_cons_of_neg]
  simp [h]

theorem skipSpace_append_cons {g cs : List Char} {c : Char} (hg : Gap g) (hc : isSpace c = false) :
    skipSpace (g ++ c :: cs) = c :: cs := by
  rw [skipSpace_append hg, skipSpace_cons hc]

/-! ## Numerals -/

/-- The text does not go on with a numeral. -/
def Ends (cs : List Char) : Prop :=
  ∀ c ∈ cs.head?, c.isDigit = false ∧ c ≠ '.' ∧ c ≠ 'e' ∧ c ≠ 'E'

/-- The text does not go on with a digit. -/
def NoDigit (cs : List Char) : Prop := ∀ c ∈ cs.head?, c.isDigit = false

theorem ends_nil : Ends [] := by simp [Ends]

theorem Ends.noDigit {cs : List Char} (h : Ends cs) : NoDigit cs := fun c hc => (h c hc).1

theorem spanDigits_append {ds cs : List Char} (hds : Digits ds) (hcs : NoDigit cs) :
    spanDigits (ds ++ cs) = (ds, cs) := by
  have htake : cs.takeWhile Char.isDigit = [] := by
    cases cs with
    | nil => rfl
    | cons c cs => simp [hcs c rfl]
  have hdrop : cs.dropWhile Char.isDigit = cs := by
    cases cs with
    | nil => rfl
    | cons c cs => simp [hcs c rfl]
  rw [spanDigits, List.takeWhile_append_of_pos hds, List.dropWhile_append_of_pos hds, htake, hdrop,
    List.append_nil]

namespace Numeral

theorem scanWhole_append {ds cs : List Char} (hds : WholeDigits ds) (hcs : NoDigit cs) :
    scanWhole (ds ++ cs) = .ok (ds, cs) := by
  cases hds with
  | zero =>
      cases cs with
      | nil => rfl
      | cons c cs => simp [scanWhole, hcs c rfl]
  | digits hne hd hds =>
      simp [scanWhole, hne, hd, spanDigits_append hds hcs]

theorem scanFraction_append {ds f cs : List Char} (hf : SpellsFraction ds f) (hcs : NoDigit cs)
    (hpoint : cs.head? ≠ some '.') : scanFraction (f ++ cs) = .ok (ds, cs) := by
  cases hf with
  | none =>
      rw [List.nil_append]
      unfold scanFraction
      split
      · exact absurd rfl hpoint
      · rfl
  | some hds hne =>
      rw [List.cons_append, scanFraction, spanDigits_append hds hcs]
      obtain ⟨d, ds, rfl⟩ := List.exists_cons_of_ne_nil hne
      rfl

theorem powerSign_append {down : Bool} {sign ds cs : List Char} (hsign : SpellsSign down sign)
    (hds : Digits ds) (hne : ds ≠ []) : powerSign (sign ++ (ds ++ cs)) = (down, ds ++ cs) := by
  cases hsign with
  | none =>
      -- Without a sign the power begins with a digit, which is no sign.
      obtain ⟨d, ds, rfl⟩ := List.exists_cons_of_ne_nil hne
      have hd := hds d (List.mem_cons_self ..)
      show powerSign (d :: (ds ++ cs)) = _
      unfold powerSign
      split
      · next h => cases h; exact absurd hd (by decide)
      · next h => cases h; exact absurd hd (by decide)
      · rfl
  | plus => rfl
  | minus => rfl

theorem scanPower_append {power : Option (Bool × List Char)} {p cs : List Char}
    (hp : SpellsPower power p) (hcs : Ends cs) : scanPower (p ++ cs) = .ok (power, cs) := by
  cases hp with
  | none =>
      cases cs with
      | nil => rfl
      | cons c cs =>
          obtain ⟨-, -, he, he'⟩ := hcs c rfl
          rw [List.nil_append, scanPower, if_neg (by simp [he, he'])]
  | some he hsign hds hne =>
      rw [List.cons_append, List.cons_append, List.append_assoc, scanPower, if_pos he,
        powerSign_append hsign hds hne, spanDigits_append hds hcs.noDigit]
      obtain ⟨d, ds, rfl⟩ := List.exists_cons_of_ne_nil hne
      rfl

/-- What follows a fraction is neither a digit nor a point. -/
theorem head?_power {p cs : List Char} {power : Option (Bool × List Char)}
    (hp : SpellsPower power p) (hcs : Ends cs) :
    NoDigit (p ++ cs) ∧ (p ++ cs).head? ≠ some '.' := by
  cases hp with
  | none => exact ⟨hcs.noDigit, fun h => (hcs '.' h).2.1 rfl⟩
  | some he hsign hds hne =>
      rcases he with rfl | rfl
      · exact ⟨fun c hc => by cases hc; rfl, by simp⟩
      · exact ⟨fun c hc => by cases hc; rfl, by simp⟩

/-- What follows the digits before the point is no digit. -/
theorem noDigit_fraction {ds f cs : List Char} (hf : SpellsFraction ds f) (hcs : NoDigit cs) :
    NoDigit (f ++ cs) := by
  cases hf with
  | none => exact hcs
  | some hds hne => exact fun c hc => by cases hc; rfl

theorem minus_append {negative : Bool} {ds cs : List Char} (hds : WholeDigits ds) :
    minus ((if negative then ['-'] else []) ++ (ds ++ cs)) = (negative, ds ++ cs) := by
  cases negative with
  | true => rfl
  | false =>
      cases hds with
      | zero => rfl
      | digits hne hd hds =>
          rw [if_neg (by simp), List.nil_append, List.cons_append]
          unfold minus
          split
          · next h => cases h; exact absurd hd (by decide)
          · rfl

/-- A numeral is split off as it is spelled. -/
theorem scan_spells {n : Numeral} {cs rest : List Char} (hn : n.Spells cs) (hrest : Ends rest) :
    scan (cs ++ rest) = .ok (n, rest) := by
  cases hn with
  | @intro negative whole fraction f p power hwhole hfraction hpower =>
      obtain ⟨hdigit, hpoint⟩ := head?_power hpower hrest
      have hnext := noDigit_fraction hfraction hdigit
      rw [List.append_assoc, List.append_assoc, List.append_assoc, scan, minus_append hwhole,
        scanWhole_append hwhole hnext]
      show (scanFraction (f ++ (p ++ rest)) >>= _) = _
      rw [scanFraction_append hfraction hdigit hpoint]
      show (scanPower (p ++ rest) >>= _) = _
      rw [scanPower_append hpower hrest]
      rfl

end Numeral

theorem readNumber_spells {n : Numeral} {cs rest : List Char} (hn : n.Spells cs)
    (hrest : Ends rest) :
    readNumber (cs ++ rest) =
      match n.number with
      | .ok number => .ok (number, rest)
      | .error unread => .error (.here .numberTooLarge (unread ++ rest)) := by
  rewrite [readNumber, Numeral.scan_spells hn hrest]
  rfl

theorem skipNumber_spells {n : Numeral} {cs rest : List Char} (hn : n.Spells cs)
    (hrest : Ends rest) : skipNumber (cs ++ rest) = .ok rest := by
  rw [skipNumber, Numeral.scan_spells hn hrest]

/-! ## Strings -/

/-- No letter of a short escape announces a unit. -/
theorem ne_u_of_shortEscape? {letter x : Char} (h : shortEscape? letter = some x) : letter ≠ 'u' := by
  rintro rfl
  cases h

section
variable {a b c d : Char} {u lead : Nat} {es : List Element} {cs rest : List Char}

theorem readUnit_quad (hu : hexQuad? a b c d = some u) :
    readUnit (a :: b :: c :: d :: rest) = .ok (u, rest) := by
  rw [readUnit, hu]

theorem readEscape_unit (hu : hexQuad? a b c d = some u) :
    readEscape ('u' :: a :: b :: c :: d :: rest) =
      if isTrail u then .error (.here .loneSurrogate rest)
      else if isLead u then readTrail u rest
      else .ok (Char.ofNat u, rest) := by
  rw [readEscape, if_pos rfl, readUnit_quad hu]

theorem readTrail_unit (hu : hexQuad? a b c d = some u) :
    readTrail lead ('\\' :: 'u' :: a :: b :: c :: d :: rest) =
      if isTrail u then .ok (joinUnits lead u, rest) else .error (.here .loneSurrogate rest) := by
  rw [readTrail.eq_def]
  simp [readUnit_quad hu]

/-- The second half of a pair is a unit and nothing else. -/
theorem readTrail_of_ne_unit (hes : SpellsElements es cs) (hne : ∀ t more, es ≠ .unit t :: more) :
    ∃ fault, readTrail lead (cs ++ '"' :: rest) = .error fault := by
  cases hes with
  | nil => exact ⟨_, rfl⟩
  | plain hquote hslash hcontrol hes =>
      rw [List.cons_append, readTrail.eq_def]
      simp [hslash]
  | short hx hes =>
      rw [List.cons_append, List.cons_append, readTrail.eq_def]
      simp [ne_u_of_shortEscape? hx]
  | unit hu hes => exact absurd rfl (hne _ _)

theorem readEscape_short {letter x : Char} (hx : shortEscape? letter = some x) :
    readEscape (letter :: rest) = .ok (x, rest) := by
  rw [readEscape, if_neg (ne_u_of_shortEscape? hx), hx]

/-! ### Whole strings -/

theorem readStringAfter_quote (read : List Char) :
    readStringAfter read ('"' :: rest) = .ok (String.ofList read.reverse, rest) := by
  rw [readStringAfter, if_pos rfl]

theorem readStringAfter_plain {x : Char} (read : List Char) (hquote : x ≠ '"') (hslash : x ≠ '\\')
    (hcontrol : isControl x = false) :
    readStringAfter read (x :: rest) = readStringAfter (x :: read) rest := by
  rw [readStringAfter, if_neg hquote, if_neg hslash, hcontrol]
  rfl

theorem readStringAfter_slash (read : List Char) :
    readStringAfter read ('\\' :: rest) =
      match readEscape rest with
      | .error fault => .error fault
      | .ok (x, rest) => readStringAfter (x :: read) rest := by
  rw [readStringAfter, if_neg (by decide), if_pos rfl]
  split
  · next fault h => rw [h]
  · next x rest' h => rw [h]

/-- Characters already read come before the others. -/
theorem map_ofList_reverse_cons (x : Char) (read : List Char) (text : Option (List Char)) :
    (text.map fun s => (String.ofList ((x :: read).reverse ++ s), rest)) =
      (text.map (x :: ·)).map fun s => (String.ofList (read.reverse ++ s), rest) := by
  rw [Option.map_map]
  congr 1
  funext s
  simp

/-- A string is read to its text, if its surrogates come in pairs. -/
theorem toOption_readStringAfter (read : List Char) (hes : SpellsElements es cs) :
    (readStringAfter read (cs ++ '"' :: rest)).toOption =
      (joinElements es).map fun s => (String.ofList (read.reverse ++ s), rest) := by
  fun_induction joinElements es generalizing cs read with
  | case1 =>
      cases hes
      rw [List.nil_append, readStringAfter_quote, Option.map_some, List.append_nil]
      rfl
  | case2 x es ih =>
      cases hes with
      | plain hquote hslash hcontrol hes =>
          rw [List.cons_append, readStringAfter_plain read hquote hslash hcontrol, ih _ hes,
            map_ofList_reverse_cons]
      | short hx hes =>
          rw [List.cons_append, List.cons_append, readStringAfter_slash, readEscape_short hx]
          exact (ih _ hes).trans (map_ofList_reverse_cons ..)
  | case3 u es htrail =>
      -- The second half of a pair without a first one.
      cases hes with
      | unit hu hes =>
          simp only [List.cons_append]
          rw [readStringAfter_slash, readEscape_unit hu, if_pos htrail]
          rfl
  | case4 u htrail hlead t more htrail' ih =>
      -- Both halves of a pair: they are one character.
      cases hes with
      | unit hu hes =>
          cases hes with
          | unit hu' hes =>
              simp only [List.cons_append]
              rw [readStringAfter_slash, readEscape_unit hu, if_neg htrail, if_pos hlead,
                readTrail_unit hu', if_pos htrail']
              exact (ih _ hes).trans (map_ofList_reverse_cons ..)
  | case5 u htrail hlead t more htrail' =>
      -- A first half, and behind it a unit that is no second one.
      cases hes with
      | unit hu hes =>
          cases hes with
          | unit hu' hes =>
              simp only [List.cons_append]
              rw [readStringAfter_slash, readEscape_unit hu, if_neg htrail, if_pos hlead,
                readTrail_unit hu', if_neg htrail']
              rfl
  | case6 u es htrail hlead hne =>
      -- A first half at the end, or in front of something that is no unit.
      cases hes with
      | unit hu hes =>
          obtain ⟨fault, hfault⟩ := readTrail_of_ne_unit hes hne
          simp only [List.cons_append]
          rw [readStringAfter_slash, readEscape_unit hu, if_neg htrail, if_pos hlead, hfault]
          rfl
  | case7 u es htrail hlead ih =>
      cases hes with
      | unit hu hes =>
          simp only [List.cons_append]
          rw [readStringAfter_slash, readEscape_unit hu, if_neg htrail, if_neg hlead]
          exact (ih _ hes).trans (map_ofList_reverse_cons ..)

theorem toOption_readString (hes : SpellsElements es cs) :
    (readString (cs ++ '"' :: rest)).toOption = (textOf es).map (·, rest) := by
  rw [readString, toOption_readStringAfter [] hes, textOf, Option.map_map]
  rfl

theorem skipString_slash (cs : List Char) :
    skipString ('\\' :: cs) =
      match skipEscape cs with
      | .error fault => .error fault
      | .ok rest => skipString rest := by
  rw [skipString, if_neg (by decide), if_pos rfl]
  split
  · next fault h => rw [h]
  · next rest' h => rw [h]

/-- A string is passed over, whether it has a text or not. -/
theorem skipString_spells (hes : SpellsElements es cs) :
    skipString (cs ++ '"' :: rest) = .ok rest := by
  induction hes with
  | nil => rw [List.nil_append, skipString, if_pos rfl]
  | plain hquote hslash hcontrol hes ih =>
      rw [List.cons_append, skipString, if_neg hquote, if_neg hslash, hcontrol]
      exact ih
  | short hx hes ih =>
      rw [List.cons_append, List.cons_append, skipString_slash, skipEscape,
        if_neg (ne_u_of_shortEscape? hx), hx]
      exact ih
  | unit hu hes ih =>
      simp only [List.cons_append]
      rw [skipString_slash, skipEscape, if_pos rfl, readUnit_quad hu]
      exact ih

end

end UmlSkeleton.Json

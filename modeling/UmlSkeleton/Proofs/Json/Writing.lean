import UmlSkeleton.Json.Tree
import UmlSkeleton.Proofs.Json.Grammar

/-!
# What is written is spelled

A tree is a document, and both ways of writing it spell that document: `spells_compact` without any
gaps, `spells_pretty` with a gap before each entry and each closing bracket.
-/

namespace UmlSkeleton.Json

/-! ## Integers -/

/-- The numeral that an integer is written as. -/
def Numeral.ofInt (n : Int) : Numeral := ⟨n < 0, Nat.toDigits 10 n.natAbs, [], none⟩

theorem digits_toDigits (n : Nat) : Digits (Nat.toDigits 10 n) := fun _ hc =>
  Nat.isDigit_of_mem_toDigits (by decide) (by decide) hc

/-- The digits of a positive number do not begin with zero. -/
theorem exists_toDigits_eq_cons {n : Nat} (hn : 0 < n) :
    ∃ d ds, Nat.toDigits 10 n = d :: ds ∧ d ≠ '0' := by
  induction n using Nat.strongRecOn with
  | ind n ih =>
      by_cases hlt : n < 10
      · have hdigit : ∀ k : Fin 10, 0 < k.val → Nat.digitChar k.val ≠ '0' := by decide
        exact ⟨_, _, Nat.toDigits_of_lt_base hlt, hdigit ⟨n, hlt⟩ hn⟩
      · -- The first digit is that of the number without its last one.
        obtain ⟨d, ds, hdigits, hd⟩ := ih (n / 10) (by omega) (by omega)
        exact ⟨d, ds ++ [Nat.digitChar (n % 10)],
          by rw [Nat.toDigits_of_base_le (by decide) (by omega), hdigits, List.cons_append], hd⟩

theorem wholeDigits_toDigits (n : Nat) : WholeDigits (Nat.toDigits 10 n) := by
  rcases Nat.eq_zero_or_pos n with rfl | hn
  · rw [Nat.toDigits_zero]
    exact .zero
  · obtain ⟨d, ds, hdigits, hd⟩ := exists_toDigits_eq_cons hn
    have hall := digits_toDigits n
    rw [hdigits] at hall ⊢
    exact .digits hd (hall d (List.mem_cons_self ..)) fun c hc => hall c (List.mem_cons_of_mem _ hc)

theorem spells_writeInteger (n : Int) : (Numeral.ofInt n).Spells (writeInteger n) := by
  have h : (Numeral.ofInt n).Spells _ := .intro (wholeDigits_toDigits n.natAbs) .none .none
  rw [List.append_nil, List.append_nil] at h
  rw [writeInteger]
  by_cases hn : n < 0
  · simpa [hn, Numeral.ofInt] using h
  · simpa [hn, Numeral.ofInt] using h

/-! ## Strings -/

/-- A control character that has no short escape is written by its number. -/
theorem joinElements_control {c : Char} {es : List Element} {cs : List Char} (hc : c.toNat < 0x20)
    (hjoin : joinElements es = some cs) : joinElements (.unit c.toNat :: es) = some (c :: cs) := by
  have htrail : isTrail c.toNat = false := by simp [isTrail]; omega
  have hlead : isLead c.toNat = false := by simp [isLead]; omega
  rw [joinElements.eq_def]
  simp [htrail, hlead, hjoin, Char.ofNat_toNat]

theorem exists_spells_escapeChar (c : Char) {cs more : List Char} {es : List Element}
    (hes : SpellsElements es more) (hjoin : joinElements es = some cs) :
    ∃ es', SpellsElements es' (escapeChar c ++ more) ∧ joinElements es' = some (c :: cs) := by
  have hchar : joinElements (.char c :: es) = some (c :: cs) := by rw [joinElements, hjoin]; rfl
  unfold escapeChar
  -- Seven characters have a short escape; the others are plain, or controls.
  split
  · exact ⟨_, .short rfl hes, hchar⟩
  · exact ⟨_, .short rfl hes, hchar⟩
  · exact ⟨_, .short rfl hes, hchar⟩
  · exact ⟨_, .short rfl hes, hchar⟩
  · exact ⟨_, .short rfl hes, hchar⟩
  · exact ⟨_, .short rfl hes, hchar⟩
  · exact ⟨_, .short rfl hes, hchar⟩
  · next hquote hslash _ _ _ _ _ =>
      split
      · next hcontrol =>
          have hquad : ∀ k : Fin 32,
              hexQuad? '0' '0' (k.val / 16).digitChar (k.val % 16).digitChar = some k.val := by decide
          exact ⟨_, .unit (hquad ⟨c.toNat, hcontrol⟩) hes, joinElements_control hcontrol hjoin⟩
      · next hcontrol =>
          exact ⟨_, .plain hquote hslash (by simpa [isControl] using hcontrol) hes, hchar⟩

/-- A text is spelled by its escaped characters. -/
theorem exists_spells_flatMap_escapeChar (cs : List Char) :
    ∃ es, SpellsElements es (cs.flatMap escapeChar) ∧ joinElements es = some cs := by
  induction cs with
  | nil => exact ⟨[], .nil, rfl⟩
  | cons c cs ih =>
      obtain ⟨es, hes, hjoin⟩ := ih
      exact exists_spells_escapeChar c hes hjoin

theorem exists_spells_string (s : String) :
    ∃ es, SpellsElements es (s.toList.flatMap escapeChar) ∧ textOf es = some s := by
  obtain ⟨es, hes, hjoin⟩ := exists_spells_flatMap_escapeChar s.toList
  exact ⟨es, hes, by rw [textOf, hjoin, Option.map_some, String.ofList_toList]⟩

/-! ## Trees -/

mutual

/-- What a tree says. -/
def Tree.document : Tree → Document
  | .null => .null
  | .integer value => .number (.ofInt value)
  | .text value => .text (some value)
  | .list items => .list (documents items)
  | .object members => .object (memberDocuments members)

def Tree.documents : List Tree → List Document
  | [] => []
  | item :: more => item.document :: documents more

def Tree.memberDocuments : List (String × Tree) → List (Option String × Document)
  | [] => []
  | (key, value) :: more => (some key, value.document) :: memberDocuments more

end

theorem spells_writeString (s : String) : Spells (.value (.text (some s))) (writeString s) := by
  obtain ⟨es, hes, htext⟩ := exists_spells_string s
  rw [← htext]
  exact .text hes

/-- A member is spelled by its key as it is written, a colon and its value. -/
theorem spells_member {first : Bool} {s g cs more : List Char} {d : Document}
    {ms : List (Option String × Document)} (key : String) (hs : Separator first s) (hg : Gap g)
    (hd : Spells (.value d) cs) (hms : Spells (.members false ms) more) :
    Spells (.members first ((some key, d) :: ms)) (s ++ (writeString key ++ ':' :: (g ++ (cs ++ more)))) := by
  obtain ⟨es, hes, htext⟩ := exists_spells_string key
  rw [← htext]
  have h := Spells.member hs hes gap_nil hg hd hms
  simpa [writeString] using h

/-- With a comma in front, entries may follow others. -/
theorem Spells.items_comma {ds : List Document} {cs : List Char} (h : Spells (.items true ds) cs)
    (hne : ds ≠ []) : Spells (.items false ds) (',' :: cs) := by
  cases h with
  | noItems hg => exact absurd rfl hne
  | item hs hd hds =>
      cases hs with
      | first hg => exact .item (.later gap_nil hg) hd hds

theorem Spells.members_comma {ms : List (Option String × Document)} {cs : List Char}
    (h : Spells (.members true ms) cs) (hne : ms ≠ []) : Spells (.members false ms) (',' :: cs) := by
  cases h with
  | noMembers hg => exact absurd rfl hne
  | member hs hkey hg hg' hd hms =>
      cases hs with
      | first hs => exact .member (.later gap_nil hs) hkey hg hg' hd hms

mutual

theorem Tree.spells_compact : (t : Tree) → Spells (.value t.document) t.compactChars
  | .null => .null
  | .integer value => .number (spells_writeInteger value)
  | .text value => spells_writeString value
  | .list items => by
      rw [compactChars, List.cons_append]
      exact .list (spells_compactItems items)
  | .object members => by
      rw [compactChars, List.cons_append]
      exact .object (spells_compactMembers members)

theorem Tree.spells_compactItems :
    (items : List Tree) → Spells (.items true (documents items)) (compactItems items)
  | [] => .noItems gap_nil
  | [item] => by
      have h := Spells.item (.first gap_nil) item.spells_compact (.noItems gap_nil)
      simpa [compactItems, documents] using h
  | item :: next :: more => by
      have hmore := (spells_compactItems (next :: more)).items_comma (by simp [documents])
      exact .item (.first gap_nil) item.spells_compact hmore

theorem Tree.spells_compactMembers :
    (members : List (String × Tree)) → Spells (.members true (memberDocuments members)) (compactMembers members)
  | [] => .noMembers gap_nil
  | [(key, value)] => by
      have h := spells_member key (.first gap_nil) gap_nil value.spells_compact (.noMembers gap_nil)
      simpa [compactMembers, memberDocuments] using h
  | (key, value) :: next :: more => by
      have hmore := (spells_compactMembers (next :: more)).members_comma (by simp [memberDocuments])
      have h := spells_member key (.first gap_nil) gap_nil value.spells_compact hmore
      simpa [compactMembers, memberDocuments] using h

end

/-! ## One item a line -/

theorem gap_newLine (level : Nat) : Gap (newLine level) := by
  intro c hc
  rcases List.mem_cons.mp hc with rfl | hc
  · decide
  · rw [List.eq_of_mem_replicate hc]
    decide

theorem gap_blank : Gap [' '] := by
  intro c hc
  rw [List.mem_singleton.mp hc]
  decide

mutual

theorem Tree.spells_pretty (level : Nat) :
    (t : Tree) → Spells (.value t.document) (t.prettyChars level)
  | .null => .null
  | .integer value => .number (spells_writeInteger value)
  | .text value => spells_writeString value
  | .list [] => .list (.noItems gap_nil)
  | .list (item :: more) => by
      have hmore := spells_prettyItems (level + 1) more (gap_newLine level)
      have h := Spells.list (.item (.first (gap_newLine (level + 1))) (item.spells_pretty (level + 1)) hmore)
      simpa [prettyChars, document, documents] using h
  | .object [] => .object (.noMembers gap_nil)
  | .object ((key, value) :: more) => by
      have hmore := spells_prettyMembers (level + 1) more (gap_newLine level)
      have h := Spells.object (spells_member key (.first (gap_newLine (level + 1))) gap_blank
        (value.spells_pretty (level + 1)) hmore)
      simpa [prettyChars, document, memberDocuments] using h

/-- The items after the first one, and the gap before the closing bracket. -/
theorem Tree.spells_prettyItems (level : Nat) {g : List Char} : (items : List Tree) → (hg : Gap g) →
    Spells (.items false (documents items)) (prettyItems level items ++ g)
  | [], hg => .noItems hg
  | item :: more, hg => by
      have h := Spells.item (.later gap_nil (gap_newLine level)) (item.spells_pretty level)
        (spells_prettyItems level more hg)
      simpa [prettyItems, documents] using h

theorem Tree.spells_prettyMembers (level : Nat) {g : List Char} :
    (members : List (String × Tree)) → (hg : Gap g) →
      Spells (.members false (memberDocuments members)) (prettyMembers level members ++ g)
  | [], hg => .noMembers hg
  | (key, value) :: more, hg => by
      have h := spells_member key (.later gap_nil (gap_newLine level)) gap_blank
        (value.spells_pretty level) (spells_prettyMembers level more hg)
      simpa [prettyMembers, memberDocuments] using h

end

/-! ## Whole texts -/

theorem Tree.spelledBy_compact (t : Tree) : t.document.SpelledBy t.compact :=
  ⟨[], t.compactChars, [], gap_nil, t.spells_compact, gap_nil, by simp [compact]⟩

theorem Tree.spelledBy_pretty (t : Tree) : t.document.SpelledBy t.pretty :=
  ⟨[], t.prettyChars 0, [], gap_nil, t.spells_pretty 0, gap_nil, by simp [pretty]⟩

end UmlSkeleton.Json

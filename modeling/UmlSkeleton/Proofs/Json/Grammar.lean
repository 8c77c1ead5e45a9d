import UmlSkeleton.Json.Numeral
import UmlSkeleton.Json.StringLiteral

/-!
# The grammar of documents

`Spells` relates what a text says to the text. It knows nothing of shapes, of readers or of the way in
which documents are written: a `Document` is spelled in many ways, with any gaps between its parts, with
members in any order and under any names, with characters written plainly or as escapes.

A string may be spelled that stands for no text, because an escaped surrogate has no partner. Such a
string is `none`: readers that want a text refuse it, but it may stand where nobody looks.

One relation covers values and the insides of lists and objects (`Part`), so that a proof about all
spellings is one induction.
-/

namespace UmlSkeleton.Json

/-- White space only. -/
def Gap (cs : List Char) : Prop := ∀ c ∈ cs, isSpace c = true

theorem gap_nil : Gap [] := by simp [Gap]

/-- Digits only. -/
def Digits (cs : List Char) : Prop := ∀ c ∈ cs, c.isDigit = true

/-! ## Numerals -/

/-- Digits before the point: one zero, or digits that do not begin with one. -/
inductive WholeDigits : List Char → Prop where
  | zero : WholeDigits ['0']
  | digits {d : Char} {ds : List Char} (hne : d ≠ '0') (hd : d.isDigit = true) (hds : Digits ds) :
      WholeDigits (d :: ds)

/-- A fraction is left out, or has a point and some digits. -/
inductive SpellsFraction : List Char → List Char → Prop where
  | none : SpellsFraction [] []
  | some {ds : List Char} (hds : Digits ds) (hne : ds ≠ []) : SpellsFraction ds ('.' :: ds)

/-- The sign of a power of ten may be left out when it is a plus. -/
inductive SpellsSign : Bool → List Char → Prop where
  | none : SpellsSign false []
  | plus : SpellsSign false ['+']
  | minus : SpellsSign true ['-']

/-- A power of ten is left out, or has its letter, a sign and some digits. -/
inductive SpellsPower : Option (Bool × List Char) → List Char → Prop where
  | none : SpellsPower none []
  | some {e : Char} {down : Bool} {sign ds : List Char} (he : e = 'e' ∨ e = 'E')
      (hsign : SpellsSign down sign) (hds : Digits ds) (hne : ds ≠ []) :
      SpellsPower (some (down, ds)) (e :: sign ++ ds)

/-- A numeral is spelled by its parts in order. -/
inductive Numeral.Spells : Numeral → List Char → Prop where
  | intro {negative : Bool} {whole fraction f p : List Char} {power : Option (Bool × List Char)}
      (hwhole : WholeDigits whole) (hfraction : SpellsFraction fraction f)
      (hpower : SpellsPower power p) :
      Spells ⟨negative, whole, fraction, power⟩
        ((if negative then ['-'] else []) ++ (whole ++ (f ++ p)))

/-! ## Strings -/

/-- What a string is made of: characters, and units of UTF-16 given by number. -/
inductive Element where
  | char (c : Char)
  | unit (u : Nat)

/-- The characters of a string, if its surrogates come in pairs. -/
def joinElements : List Element → Option (List Char)
  | [] => some []
  | .char c :: es => (joinElements es).map (c :: ·)
  | .unit u :: es =>
    if isTrail u then none
    else if isLead u then
      match es with
      | .unit t :: more =>
        if isTrail t then (joinElements more).map (joinUnits u t :: ·) else none
      | _ => none
    else (joinElements es).map (Char.ofNat u :: ·)

/-- The text of a string. -/
def textOf (es : List Element) : Option String := (joinElements es).map String.ofList

/-- Elements between the quotes of a string: characters as they are, short escapes, and units in
four hexadecimal digits. -/
inductive SpellsElements : List Element → List Char → Prop where
  | nil : SpellsElements [] []
  | plain {x : Char} {es : List Element} {cs : List Char} (hquote : x ≠ '"') (hslash : x ≠ '\\')
      (hcontrol : isControl x = false) (hes : SpellsElements es cs) :
      SpellsElements (.char x :: es) (x :: cs)
  | short {letter x : Char} {es : List Element} {cs : List Char}
      (hx : shortEscape? letter = some x) (hes : SpellsElements es cs) :
      SpellsElements (.char x :: es) ('\\' :: letter :: cs)
  | unit {a b c d : Char} {u : Nat} {es : List Element} {cs : List Char}
      (hu : hexQuad? a b c d = some u) (hes : SpellsElements es cs) :
      SpellsElements (.unit u :: es) ('\\' :: 'u' :: a :: b :: c :: d :: cs)

/-! ## Values -/

/-- What a text says, before anyone asks for a shape. -/
inductive Document where
  | null
  | boolean (value : Bool)
  | number (numeral : Numeral)
  | text (value : Option String)
  | list (items : List Document)
  | object (members : List (Option String × Document))

/-- What is spelled: a value, or the inside of a list or an object, from its first entry or from a
later one on. -/
inductive Part where
  | value (d : Document)
  | items (first : Bool) (ds : List Document)
  | members (first : Bool) (ms : List (Option String × Document))

/-- What stands before an entry: a gap, and a comma unless the entry is the first. -/
inductive Separator : Bool → List Char → Prop where
  | first {g : List Char} (hg : Gap g) : Separator true g
  | later {g g' : List Char} (hg : Gap g) (hg' : Gap g') : Separator false (g ++ ',' :: g')

/-- A text between the first and the last character of a part, without gaps around a value. -/
inductive Spells : Part → List Char → Prop where
  | null : Spells (.value .null) ['n', 'u', 'l', 'l']
  | yes : Spells (.value (.boolean true)) ['t', 'r', 'u', 'e']
  | no : Spells (.value (.boolean false)) ['f', 'a', 'l', 's', 'e']
  | number {n : Numeral} {cs : List Char} (hn : n.Spells cs) : Spells (.value (.number n)) cs
  | text {es : List Element} {cs : List Char} (hes : SpellsElements es cs) :
      Spells (.value (.text (textOf es))) ('"' :: (cs ++ ['"']))
  | list {ds : List Document} {cs : List Char} (hds : Spells (.items true ds) cs) :
      Spells (.value (.list ds)) ('[' :: (cs ++ [']']))
  | object {ms : List (Option String × Document)} {cs : List Char}
      (hms : Spells (.members true ms) cs) : Spells (.value (.object ms)) ('\x7b' :: (cs ++ ['\x7d']))
  | noItems {first : Bool} {g : List Char} (hg : Gap g) : Spells (.items first []) g
  | item {first : Bool} {s cs more : List Char} {d : Document} {ds : List Document}
      (hs : Separator first s) (hd : Spells (.value d) cs) (hds : Spells (.items false ds) more) :
      Spells (.items first (d :: ds)) (s ++ (cs ++ more))
  | noMembers {first : Bool} {g : List Char} (hg : Gap g) : Spells (.members first []) g
  | member {first : Bool} {s key g g' cs more : List Char} {es : List Element} {d : Document}
      {ms : List (Option String × Document)} (hs : Separator first s) (hkey : SpellsElements es key)
      (hg : Gap g) (hg' : Gap g') (hd : Spells (.value d) cs)
      (hms : Spells (.members false ms) more) :
      Spells (.members first ((textOf es, d) :: ms))
        (s ++ '"' :: (key ++ '"' :: (g ++ ':' :: (g' ++ (cs ++ more)))))

/-- A whole text: one value with gaps around it. -/
def Document.SpelledBy (d : Document) (text : String) : Prop :=
  ∃ g cs g', Gap g ∧ Spells (.value d) cs ∧ Gap g' ∧ text.toList = g ++ (cs ++ g')

end UmlSkeleton.Json

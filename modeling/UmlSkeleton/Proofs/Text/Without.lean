/-!
# Texts without certain characters

A line end or a brace in a text changes what is around it: it ends a line, or opens or closes a block.
These are the framing characters. The words that a target puts around the texts of a model have none of
them, so what is written has only those that the texts bring along. This holds of one kind of framing
characters as well as of all of them, so it is stated for any kind.

* `Without bad s` — no character of `s` is bad.
* `without_append`, `Without.intercalate` — one law for each way of putting texts together.
-/

namespace UmlSkeleton.Text

/-- The text has no bad character. -/
def Without (bad : Char → Bool) (s : String) : Prop := ∀ c ∈ s.toList, bad c = false

instance (bad : Char → Bool) (s : String) : Decidable (Without bad s) :=
  decidable_of_iff (s.toList.all (!bad ·) = true) (by simp [Without])

/-! ## Framing characters -/

def isLineEnd (c : Char) : Bool := c = '\n'

def isBrace (c : Char) : Bool := c = '\x7b' || c = '\x7d'

/-- A line end or a brace. -/
def isFraming (c : Char) : Bool := isLineEnd c || isBrace c

theorem isFraming_of_isLineEnd (c : Char) (h : isLineEnd c = true) : isFraming c = true := by
  rw [isFraming, h, Bool.true_or]

/-- Without framing characters there are none of one kind of them. -/
theorem Without.of_isFraming {bad : Char → Bool} (hbad : ∀ c, bad c = true → isFraming c = true)
    {s : String} (h : Without isFraming s) : Without bad s := by
  intro c hc
  refine Bool.eq_false_iff.mpr fun hc' => ?_
  exact absurd (hbad c hc') (Bool.eq_false_iff.mp (h c hc))

/-! ## Putting texts together -/

variable {bad : Char → Bool} {s t : String}

@[simp] theorem without_append : Without bad (s ++ t) ↔ Without bad s ∧ Without bad t := by
  simp [Without, or_imp, forall_and]

theorem Without.intercalate {texts : List String} (hs : Without bad s)
    (h : ∀ t ∈ texts, Without bad t) : Without bad (s.intercalate texts) := by
  induction texts with
  | nil => simp [Without]
  | cons t texts ih =>
      obtain ⟨ht, hmore⟩ := List.forall_mem_cons.mp h
      cases texts with
      | nil => simpa using ht
      | cons u texts =>
          rw [String.intercalate_cons_cons, without_append, without_append]
          exact ⟨⟨ht, hs⟩, ih hmore⟩

end UmlSkeleton.Text

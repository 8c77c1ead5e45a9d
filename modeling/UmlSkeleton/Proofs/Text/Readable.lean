import Mathlib.Data.List.TakeWhile

/-!
# Reading back what was written one after the other

Something that is written as a sequence is readable if it can be told where it ends, whatever follows: two
sequences that begin with one each, and are the same, begin with the same one and go on in the same way.
What a reader learns may be less than what was written, so readability is relative to a view of it.

A word is readable because it ends where another character comes. Most of what is written is made of words
with single characters between them.

* `Readable.flatMap` — readable items in a row, up to something that begins none of them.
* `Word.append_inj` — words are readable if what follows begins with another character.
* `spacedWords_inj` — any number of words with spaces between them, up to another character.
-/

namespace UmlSkeleton.Text

/-! ## Sequences -/

/-- Whatever follows, as long as it satisfies `q`, it is seen where a sequence for an item ends, and what
the item looks like. -/
def Readable (p : α → Prop) (q : List γ → Prop) (written : α → List γ) (view : α → β) : Prop :=
  ∀ a b, p a → p b → ∀ r s, q r → q s → written a ++ r = written b ++ s → view a = view b ∧ r = s

/-- No item is written at the beginning of the sequence. -/
def EndsItems (p : α → Prop) (written : α → List γ) (r : List γ) : Prop :=
  ∀ a, p a → ∀ s, written a ++ s ≠ r

section
variable {p : α → Prop} {q : List γ → Prop} {written : α → List γ} {view : α → β}

theorem Readable.flatMap (h : Readable p q written view)
    (hnext : ∀ a, p a → ∀ r, q (written a ++ r)) {xs ys : List α} (hxs : ∀ a ∈ xs, p a)
    (hys : ∀ a ∈ ys, p a) {r s : List γ} (hr : q r ∧ EndsItems p written r)
    (hs : q s ∧ EndsItems p written s) (heq : xs.flatMap written ++ r = ys.flatMap written ++ s) :
    xs.map view = ys.map view ∧ r = s := by
  -- What follows an item is another item or the end, and `q` holds of both.
  have hrest {zs : List α} (hzs : ∀ a ∈ zs, p a) {t : List γ} (ht : q t) :
      q (zs.flatMap written ++ t) := by
    cases zs with
    | nil => exact ht
    | cons z zs =>
        rw [List.flatMap_cons, List.append_assoc]
        exact hnext z (hzs z (List.mem_cons_self ..)) _
  induction xs generalizing ys with
  | nil =>
      cases ys with
      | nil => exact ⟨rfl, heq⟩
      | cons y ys =>
          rw [List.flatMap_cons, List.append_assoc] at heq
          exact absurd heq.symm (hr.2 y (hys y (List.mem_cons_self ..)) _)
  | cons x xs ih =>
      have hx := hxs x (List.mem_cons_self ..)
      have hxs' : ∀ a ∈ xs, p a := fun a ha => hxs a (List.mem_cons_of_mem x ha)
      rw [List.flatMap_cons, List.append_assoc] at heq
      cases ys with
      | nil => exact absurd heq (hs.2 x hx _)
      | cons y ys =>
          have hy := hys y (List.mem_cons_self ..)
          have hys' : ∀ a ∈ ys, p a := fun a ha => hys a (List.mem_cons_of_mem y ha)
          rw [List.flatMap_cons, List.append_assoc] at heq
          obtain ⟨hview, hmore⟩ := h x y hx hy _ _ (hrest hxs' hr.1) (hrest hys' hs.1) heq
          obtain ⟨hviews, htail⟩ := ih hxs' hys' hmore
          exact ⟨by rw [List.map_cons, List.map_cons, hview, hviews], htail⟩

/-- What depends on the view of an item alone is the same for items with the same views. -/
theorem map_eq_of_factorsThrough {f : α → γ} (h : f.FactorsThrough view) {xs ys : List α}
    (heq : xs.map view = ys.map view) : xs.map f = ys.map f := by
  induction xs generalizing ys with
  | nil =>
      rw [List.map_eq_nil_iff.mp heq.symm]
  | cons x xs ih =>
      cases ys with
      | nil => cases heq
      | cons y ys =>
          obtain ⟨hview, hmore⟩ := List.cons.inj heq
          rw [List.map_cons, List.map_cons, h hview, ih hmore]

/-- Two sequences are split at the same place if it is the first one where `p` fails. -/
theorem append_inj_of_forall {p : γ → Bool} {xs ys r s : List γ} (hxs : ∀ a ∈ xs, p a = true)
    (hys : ∀ a ∈ ys, p a = true) (hr : ∀ a ∈ r.head?, p a = false)
    (hs : ∀ a ∈ s.head?, p a = false) (h : xs ++ r = ys ++ s) : xs = ys ∧ r = s := by
  have hnone {t : List γ} (ht : ∀ a ∈ t.head?, p a = false) : t.takeWhile p = [] := by
    cases t with
    | nil => rfl
    | cons a t => exact List.takeWhile_cons_of_neg (by simp [ht a rfl])
  have hfront : xs = ys := by
    have htake := congrArg (List.takeWhile p) h
    rwa [List.takeWhile_append_of_pos hxs, List.takeWhile_append_of_pos hys, hnone hr, hnone hs,
      List.append_nil, List.append_nil] at htake
  subst hfront
  exact ⟨rfl, List.append_cancel_left h⟩

end

/-! ## Words -/

/-- An ASCII letter, a digit or an underscore. -/
def isWordChar (c : Char) : Bool := c.isAlphanum || c = '_'

/-- The text consists of ASCII letters, digits and underscores, and is not empty. -/
def Word (s : String) : Prop := s ≠ "" ∧ ∀ c ∈ s.toList, isWordChar c = true

instance (s : String) : Decidable (Word s) :=
  decidable_of_iff (s ≠ "" ∧ s.toList.all isWordChar = true) (and_congr_right' List.all_eq_true)

/-- A word ends before this. -/
def Breaks (cs : List Char) : Prop := ∀ c ∈ cs.head?, isWordChar c = false

theorem breaks_cons {c : Char} (h : isWordChar c = false) (cs : List Char) : Breaks (c :: cs) := by
  intro d hd
  rwa [← Option.some.inj hd]

theorem Word.append_inj {v w : String} (hv : Word v) (hw : Word w) {r s : List Char} (hr : Breaks r)
    (hs : Breaks s) (h : v.toList ++ r = w.toList ++ s) : v = w ∧ r = s := by
  obtain ⟨hword, hrest⟩ := append_inj_of_forall hv.2 hw.2 hr hs h
  exact ⟨String.toList_inj.mp hword, hrest⟩

/-- A word begins with a character of its own. -/
theorem Word.append_ne {w : String} (hw : Word w) {s : List Char} (hs : Breaks s) (r : List Char) :
    w.toList ++ r ≠ s := by
  rintro rfl
  cases hchars : w.toList with
  | nil => exact hw.1 (by simpa using hchars)
  | cons c cs =>
      have hbreak : isWordChar c = false := hs c (by rw [hchars]; rfl)
      have hchar : isWordChar c = true := hw.2 c (by rw [hchars]; exact List.mem_cons_self ..)
      rw [hbreak] at hchar
      cases hchar

/-! ## Words with spaces between them -/

/-- A space after each word. -/
def spacedWords (words : List String) : List Char := words.flatMap fun w => w.toList ++ [' ']

/-- Words with spaces between them, the last one ended by another character, are read word by word. -/
theorem spacedWords_inj {vs ws : List String} {v w : String} (hvs : ∀ u ∈ v :: vs, Word u)
    (hws : ∀ u ∈ w :: ws, Word u) {c : Char} (hc : isWordChar c = false) (hspace : c ≠ ' ')
    {r s : List Char}
    (h : spacedWords vs ++ (v.toList ++ c :: r) = spacedWords ws ++ (w.toList ++ c :: s)) :
    vs = ws ∧ v = w ∧ r = s := by
  have hspaced : Readable Word (fun _ => True) (fun w => w.toList ++ [' ']) id := by
    intro a b ha hb r s _ _ heq
    rw [List.append_assoc, List.append_assoc] at heq
    obtain ⟨hword, hrest⟩ :=
      ha.append_inj hb (breaks_cons (by decide) r) (breaks_cons (by decide) s) heq
    exact ⟨hword, List.cons.inj hrest |>.2⟩
  -- The last word is followed by the other character, so it is none of the words before it.
  have hends {u : String} (hu : Word u) (t : List Char) :
      EndsItems Word (fun w => w.toList ++ [' ']) (u.toList ++ c :: t) := by
    intro a ha s heq
    rw [List.append_assoc] at heq
    obtain ⟨-, hrest⟩ := ha.append_inj hu (breaks_cons (by decide) s) (breaks_cons hc t) heq
    exact hspace (List.cons.inj hrest).1.symm
  have hv := List.forall_mem_cons.mp hvs
  have hw := List.forall_mem_cons.mp hws
  obtain ⟨hwords, hlast⟩ := hspaced.flatMap (fun _ _ _ => trivial) hv.2 hw.2
    ⟨trivial, hends hv.1 r⟩ ⟨trivial, hends hw.1 s⟩ h
  obtain ⟨hword, hrest⟩ := hv.1.append_inj hw.1 (breaks_cons hc r) (breaks_cons hc s) hlast
  exact ⟨by simpa using hwords, hword, (List.cons.inj hrest).2⟩

end UmlSkeleton.Text

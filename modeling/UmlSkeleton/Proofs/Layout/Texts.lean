import UmlSkeleton.Proofs.Layout.Lines

/-!
# What rows say

A text that is laid out shows what its rows say as soon as no row says something that looks like
indentation: then the spaces in front of a line tell the depth of a row from its text. What the rows say
is mostly what the steps say; the rest are the blank rows that gaps leave between siblings.

* `rowTexts_eq_of_layOut_eq` — the same text at the same width, the same rows but for their depth.
* `Solid.rowTexts`, `rowTexts_spaced` — what the rows of a block say, from its steps.
-/

namespace UmlSkeleton

open Text

/-! ## Texts behind an indentation -/

/-- The text is on a single line and begins with something else than a space. -/
def Upright (text : String) : Prop :=
  SingleLine text ∧ text.toList.head?.any (· ≠ ' ') = true

instance (text : String) : Decidable (Upright text) := inferInstanceAs (Decidable (_ ∧ _))

/-- Only the first of some texts in a row has to begin upright. -/
theorem upright_append {s t : String} (h : s ≠ "") :
    Upright (s ++ t) ↔ Upright s ∧ SingleLine t := by
  have hhead : (s ++ t).toList.head? = s.toList.head? := by
    cases hchars : s.toList with
    | nil => exact absurd (by simpa using hchars) h
    | cons c cs => rw [String.toList_append, hchars, List.cons_append, List.head?_cons, List.head?_cons]
  rw [Upright, hhead, singleLine_append, and_right_comm, ← Upright]

/-- What a row says begins where its indentation ends. -/
theorem dropWhile_line (width : Nat) {row : Row} (h : row.text = "" ∨ Upright row.text) :
    (row.line width).toList.dropWhile (· = ' ') = row.text.toList := by
  unfold Row.line
  split
  · next hempty => rw [hempty]; rfl
  · next hne =>
      obtain ⟨-, hhead⟩ := h.resolve_left hne
      rw [String.toList_append, String.toList_ofList, List.dropWhile_append_of_pos (by simp)]
      cases hchars : row.text.toList with
      | nil => rfl
      | cons c cs =>
          rw [hchars] at hhead
          exact List.dropWhile_cons_of_neg (by simpa using hhead)

/-! ## Texts of rows -/

/-- What the rows of some steps say. -/
def rowTexts (m : Margin) (steps : List Step) : List String := (rows m steps).map (·.text)

theorem rowTexts_append (m : Margin) (xs ys : List Step) :
    rowTexts m (xs ++ ys) = rowTexts m xs ++ rowTexts (m.run xs) ys := by
  rw [rowTexts, rows_append, List.map_append, rowTexts, rowTexts]

theorem rowTexts_braced (m : Margin) (header : String) (body : List Step) :
    rowTexts m (braced header body) =
      (header ++ " \x7b") :: (rowTexts ⟨m.depth + 1, false⟩ body ++ ["\x7d"]) := by
  rw [braced, rowTexts_append]
  rfl

theorem rowTexts_indented (m : Margin) (header : String) (body : List Step) :
    rowTexts m (indented header body) = header :: rowTexts ⟨m.depth + 1, false⟩ body := by
  have hdedent (n : Margin) : rowTexts n [.dedent] = [] := rfl
  rw [indented, rowTexts_append, hdedent, List.append_nil]
  rfl

theorem rowTexts_lines (m : Margin) (texts : List String) : rowTexts m (texts.map .line) = texts := by
  rw [rowTexts, rows_lines, List.map_map]
  exact List.map_id _

/-- Steps that lay out the same text at the same width have rows that say the same. -/
theorem rowTexts_eq_of_layOut_eq {width : Nat} {xs ys : List Step} (hx : EachText Upright xs)
    (hy : EachText Upright ys) (h : layOut width xs = layOut width ys) :
    rowTexts .start xs = rowTexts .start ys := by
  have hsingle {steps : List Step} (hsteps : EachText Upright steps) : EachText SingleLine steps :=
    fun step hstep text htext => (hsteps step hstep text htext).1
  have htexts {steps : List Step} (hsteps : EachText Upright steps) :
      (lines (layOut width steps)).map (fun line => String.ofList (line.toList.dropWhile (· = ' '))) =
        rowTexts .start steps := by
    have hblank : EachText (fun text => text = "" ∨ Upright text) steps :=
      fun step hstep text htext => .inr (hsteps step hstep text htext)
    have hrows : ∀ r ∈ rows .start steps, r.text = "" ∨ Upright r.text :=
      forall_mem_rows (p := fun text => text = "" ∨ Upright text) (.inl rfl) hblank .start
    rw [lines_layOut (hsingle hsteps), linesOf, List.map_map]
    refine List.map_congr_left fun r hr => ?_
    rw [Function.comp_apply, dropWhile_line width (hrows r hr), String.ofList_toList]
  rw [← htexts hx, ← htexts hy, h]

/-! ## Texts of steps -/

/-- What the steps say of their own. -/
def textsOf (steps : List Step) : List String := steps.filterMap Step.text?

theorem textsOf_braced (header : String) (body : List Step) :
    textsOf (braced header body) = (header ++ " \x7b") :: (textsOf body ++ ["\x7d"]) := by
  rw [textsOf, braced, List.filterMap_append]
  rfl

/-- Every step says something of its own, so its row does not depend on what comes before. -/
def Solid (steps : List Step) : Prop := ∀ step ∈ steps, step.text?.isSome = true

theorem Solid.append {xs ys : List Step} (hx : Solid xs) (hy : Solid ys) : Solid (xs ++ ys) :=
  List.forall_mem_append.mpr ⟨hx, hy⟩

theorem Solid.stepsIf {condition : Bool} {steps : List Step} (h : Solid steps) :
    Solid (stepsIf condition steps) := by
  cases condition with
  | false => simp [Solid, UmlSkeleton.stepsIf]
  | true => exact h

theorem solid_braced {header : String} {body : List Step} (h : Solid body) :
    Solid (braced header body) := by
  rw [braced, ← List.singleton_append, List.append_assoc]
  exact Solid.append (by simp [Solid, Step.text?]) (h.append (by simp [Solid, Step.text?]))

theorem Solid.rowTexts {steps : List Step} (h : Solid steps) (m : Margin) :
    rowTexts m steps = textsOf steps := by
  induction steps generalizing m with
  | nil => rfl
  | cons step steps ih =>
      obtain ⟨hstep, hsteps⟩ := List.forall_mem_cons.mp h
      have hmore : (rows (step.after m) steps).map (·.text) = textsOf steps := ih hsteps _
      rw [UmlSkeleton.rowTexts, rows, List.map_append, hmore]
      cases step with
      | line text => rfl
      | enter text => rfl
      | leave text => rfl
      | blank => cases hstep
      | gap => cases hstep
      | indent => cases hstep
      | dedent => cases hstep

/-- What siblings say where a gap is due before each of them: the gap is a blank row. -/
def siblingTexts (blocks : List (List Step)) : List String := blocks.flatMap fun b => "" :: textsOf b

@[simp] theorem siblingTexts_append (xs ys : List (List Step)) :
    siblingTexts (xs ++ ys) = siblingTexts xs ++ siblingTexts ys := List.flatMap_append

theorem siblingTexts_map (f : α → List Step) (xs : List α) :
    siblingTexts (xs.map f) = xs.flatMap fun a => "" :: textsOf (f a) := List.flatMap_map ..

theorem rowTexts_spaced {blocks : List (List Step)} (h : ∀ b ∈ blocks, Solid b ∧ Settled b)
    (depth : Nat) : rowTexts ⟨depth, true⟩ (spaced blocks) = siblingTexts blocks := by
  have hblock : ∀ b ∈ blocks, "" :: rowTexts ⟨depth, false⟩ b = "" :: textsOf b :=
    fun b hb => congrArg ("" :: ·) ((h b hb).1.rowTexts ⟨depth, false⟩)
  rw [rowTexts, rows_spaced fun b hb => (h b hb).2 ⟨depth, false⟩, List.map_flatMap, siblingTexts,
    List.flatMap_def, List.flatMap_def]
  exact congrArg List.flatten (List.map_congr_left hblock)

/-- Before the first of some siblings a gap may be due or not. -/
theorem rowTexts_spaced_cons {first : List Step} {more : List (List Step)}
    (h : ∀ b ∈ first :: more, Solid b ∧ Settled b) (m : Margin) :
    rowTexts m (spaced (first :: more)) =
      (if m.due then [""] else []) ++ textsOf first ++ siblingTexts more := by
  obtain ⟨hsolid, hsettled⟩ := h first (List.mem_cons_self ..)
  have hfirst : rowTexts m (.gap :: first) = (if m.due then [""] else []) ++ textsOf first := by
    have htexts : (rows ⟨m.depth, false⟩ first).map (·.text) = textsOf first := hsolid.rowTexts _
    rw [rowTexts, rows, List.map_append, Step.after, htexts, Step.row?]
    cases m.due <;> rfl
  have hafter : m.run (.gap :: first) = ⟨m.depth, true⟩ := hsettled ⟨m.depth, false⟩
  rw [spaced, List.flatMap_cons, rowTexts_append, hfirst, hafter, ← spaced,
    rowTexts_spaced (fun b hb => h b (List.mem_cons_of_mem first hb))]

end UmlSkeleton

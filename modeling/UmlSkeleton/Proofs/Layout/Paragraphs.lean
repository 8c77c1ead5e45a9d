import Mathlib.Data.List.Chain
import UmlSkeleton.Proofs.Layout.Texts
import UmlSkeleton.Proofs.Python.Parts

/-!
# Lines set apart by blank lines

A blank line is to stand between siblings: not at an end of what it is in, not next to another one, and not
next to the line that opens a block or the one that closes it. Which lines open and close is up to the
language. Lines with this property are put together like blocks are: one after the other, with a blank line
between them, and inside of a block.

A layout writes such lines although only a flag tells whether a gap is due. Blocks are written where none is,
and leave one due after them (`Neat`); so gaps between them write exactly one blank line each.

* `Tidy`, `Paragraph` — lines with blank lines between siblings only.
* `Neat` — steps that write a paragraph, wherever a gap is not due.
* `Neat.spaced`, `Neat.braced`, `Neat.indented` — siblings, and blocks of them.
-/

namespace UmlSkeleton

open Python (isBlank isBlank_line mem_content)

variable {opens closes : String → Bool} {xs ys ls : List String} {l : String}

/-! ## Lines -/

/-- A line with another character than spaces is not blank. -/
theorem isBlank_of_mem {c : Char} (hc : c ∈ l.toList) (hspace : c ≠ ' ') : isBlank l = false := by
  rw [isBlank, List.isEmpty_eq_false_iff]
  exact List.ne_nil_of_mem (mem_content hc hspace)

/-- One line may follow the other: a blank line follows neither a blank one nor one that opens a block, and
no line that closes a block follows a blank line. -/
def Apart (opens closes : String → Bool) (a b : String) : Prop :=
  (isBlank b = true → isBlank a = false ∧ opens a = false) ∧ (isBlank a = true → closes b = false)

/-- Blank lines are empty and stand between other lines, one at a time, with a line before them that does
not open a block and one after them that does not close one. -/
structure Tidy (opens closes : String → Bool) (ls : List String) : Prop where
  eq_empty : ∀ l ∈ ls, isBlank l = true → l = ""
  first : ∀ l ∈ ls.head?, isBlank l = false
  last : ∀ l ∈ ls.getLast?, isBlank l = false
  chain : ls.IsChain (Apart opens closes)

/-- Tidy lines that may have a blank line before them and after them. -/
structure Paragraph (opens closes : String → Bool) (ls : List String) : Prop
    extends Tidy opens closes ls where
  ne_nil : ls ≠ []
  first_not_closes : ∀ l ∈ ls.head?, closes l = false
  last_not_opens : ∀ l ∈ ls.getLast?, opens l = false

theorem apart_of_not_blank {a b : String} (ha : isBlank a = false) (hb : isBlank b = false) :
    Apart opens closes a b := by
  constructor
  · intro h
    rw [hb] at h
    cases h
  · intro h
    rw [ha] at h
    cases h

theorem tidy_of_not_blank (h : ∀ l ∈ ls, isBlank l = false) : Tidy opens closes ls where
  eq_empty l hl hblank := by
    rw [h l hl] at hblank
    cases hblank
  first l hl := h l (List.mem_of_head? hl)
  last l hl := h l (List.mem_of_getLast? hl)
  chain := List.Pairwise.isChain <| List.pairwise_of_forall_mem_list fun a ha b hb =>
    apart_of_not_blank (h a ha) (h b hb)

theorem paragraph_of_not_blank (hne : ls ≠ []) (h : ∀ l ∈ ls, isBlank l = false)
    (hfirst : ∀ l ∈ ls.head?, closes l = false) (hlast : ∀ l ∈ ls.getLast?, opens l = false) :
    Paragraph opens closes ls :=
  ⟨tidy_of_not_blank h, hne, hfirst, hlast⟩

/-- Tidy lines may follow each other directly. -/
theorem Tidy.append (hx : Tidy opens closes xs) (hy : Tidy opens closes ys) :
    Tidy opens closes (xs ++ ys) where
  eq_empty := List.forall_mem_append.mpr ⟨hx.eq_empty, hy.eq_empty⟩
  first l hl := by
    rw [List.head?_append] at hl
    cases hhead : xs.head? with
    | none =>
        rw [hhead] at hl
        exact hy.first l hl
    | some a =>
        rw [hhead] at hl
        cases hl
        exact hx.first l hhead
  last l hl := by
    rw [List.getLast?_append] at hl
    cases hlast : ys.getLast? with
    | none =>
        rw [hlast] at hl
        exact hx.last l hl
    | some a =>
        rw [hlast] at hl
        cases hl
        exact hy.last l hlast
  chain := List.isChain_append.mpr ⟨hx.chain, hy.chain, fun a ha b hb =>
    apart_of_not_blank (hx.last a ha) (hy.first b hb)⟩

/-- Between a paragraph and further lines there may be a blank line. -/
theorem Paragraph.append_blank (hx : Paragraph opens closes xs) (hy : Tidy opens closes ys) (hne : ys ≠ [])
    (hfirst : ∀ l ∈ ys.head?, closes l = false) : Tidy opens closes (xs ++ "" :: ys) where
  eq_empty := by
    rw [List.forall_mem_append, List.forall_mem_cons]
    exact ⟨hx.eq_empty, fun _ => rfl, hy.eq_empty⟩
  first l hl := by
    rw [List.head?_append_of_ne_nil _ hx.ne_nil] at hl
    exact hx.first l hl
  last l hl := by
    rw [List.append_cons, List.getLast?_append_of_ne_nil _ hne] at hl
    exact hy.last l hl
  chain := by
    rw [List.isChain_append, List.isChain_cons]
    refine ⟨hx.chain, ⟨fun b hb => ⟨fun hblank => ?_, fun _ => hfirst b hb⟩, hy.chain⟩, fun a ha b hb => ?_⟩
    · rw [hy.first b hb] at hblank
      cases hblank
    · cases hb
      refine ⟨fun _ => ⟨hx.last a ha, hx.last_not_opens a ha⟩, fun hblank => ?_⟩
      rw [hx.last a ha] at hblank
      cases hblank

namespace Paragraph

/-- Tidy lines that begin and end like paragraphs are a paragraph. -/
theorem of_tidy (hx : Paragraph opens closes xs) (hy : Paragraph opens closes ys) (hbegins : xs <+: ls)
    (hends : ys <:+ ls) (h : Tidy opens closes ls) : Paragraph opens closes ls where
  toTidy := h
  ne_nil := hbegins.ne_nil hx.ne_nil
  first_not_closes l hl := by
    obtain ⟨rest, rfl⟩ := hbegins
    rw [List.head?_append_of_ne_nil _ hx.ne_nil] at hl
    exact hx.first_not_closes l hl
  last_not_opens l hl := by
    obtain ⟨front, rfl⟩ := hends
    rw [List.getLast?_append_of_ne_nil _ hy.ne_nil] at hl
    exact hy.last_not_opens l hl

theorem append (hx : Paragraph opens closes xs) (hy : Paragraph opens closes ys) :
    Paragraph opens closes (xs ++ ys) :=
  hx.of_tidy hy (List.prefix_append ..) (List.suffix_append ..) (hx.toTidy.append hy.toTidy)

/-- Two paragraphs with a blank line between them. -/
theorem gap (hx : Paragraph opens closes xs) (hy : Paragraph opens closes ys) :
    Paragraph opens closes (xs ++ "" :: ys) := by
  have hends : ys <:+ xs ++ "" :: ys := ⟨xs ++ [""], (List.append_cons ..).symm⟩
  exact hx.of_tidy hy (List.prefix_append ..) hends
    (hx.append_blank hy.toTidy hy.ne_nil hy.first_not_closes)

/-- Any number of paragraphs, each with a blank line before it. -/
theorem gaps {parts : List (List String)} (hx : Paragraph opens closes xs)
    (h : ∀ ys ∈ parts, Paragraph opens closes ys) :
    Paragraph opens closes (xs ++ parts.flatMap ("" :: ·)) := by
  induction parts generalizing xs with
  | nil => rwa [List.flatMap_nil, List.append_nil]
  | cons ys parts ih =>
      obtain ⟨hy, hparts⟩ := List.forall_mem_cons.mp h
      have hmore := ih (hx.gap hy) hparts
      rwa [List.append_assoc] at hmore

end Paragraph

/-! ## Steps -/

/-- Where no gap is due the steps write a paragraph, and after it one is due. -/
structure Neat (opens closes : String → Bool) (steps : List Step) : Prop where
  run : ∀ d, Margin.run ⟨d, false⟩ steps = ⟨d, true⟩
  paragraph : ∀ d, Paragraph opens closes (rowTexts ⟨d, false⟩ steps)

namespace Neat

variable {steps body : List Step} {blocks : List (List Step)} {header : String} {texts : List String}

theorem lines (h : Paragraph opens closes texts) : Neat opens closes (texts.map .line) where
  run _ := settled_lines (forall_mem_map_line texts) (by simpa using h.ne_nil) _
  paragraph _ := by rwa [rowTexts_lines]

theorem rowTexts_spaced (h : ∀ b ∈ blocks, Neat opens closes b) (d : Nat) :
    rowTexts ⟨d, true⟩ (spaced blocks) = (blocks.map (rowTexts ⟨d, false⟩)).flatMap ("" :: ·) := by
  rw [rowTexts, rows_spaced fun b hb => (h b hb).run d, List.map_flatMap, List.flatMap_map]
  rfl

/-- Steps with siblings after them. -/
theorem append_spaced (hsteps : Neat opens closes steps) (h : ∀ b ∈ blocks, Neat opens closes b) :
    Neat opens closes (steps ++ spaced blocks) where
  run d := by rw [Margin.run_append, hsteps.run, run_spaced fun b hb => (h b hb).run d]
  paragraph d := by
    rw [rowTexts_append, hsteps.run, rowTexts_spaced h]
    exact (hsteps.paragraph d).gaps (List.forall_mem_map.mpr fun b hb => (h b hb).paragraph d)

theorem append_lines (hsteps : Neat opens closes steps) (h : Paragraph opens closes texts) :
    Neat opens closes (steps ++ texts.map .line) where
  run d := by
    have hlines : Settled (texts.map .line) :=
      settled_lines (forall_mem_map_line texts) (by simpa using h.ne_nil)
    rw [Margin.run_append, hsteps.run, hlines]
  paragraph d := by
    rw [rowTexts_append, rowTexts_lines]
    exact (hsteps.paragraph d).append h

/-- The first of some siblings comes where no gap is due. -/
theorem spaced (h : ∀ b ∈ blocks, Neat opens closes b) (hne : blocks ≠ []) :
    Neat opens closes (spaced blocks) := by
  cases blocks with
  | nil => exact absurd rfl hne
  | cons b blocks =>
      obtain ⟨hb, hmore⟩ := List.forall_mem_cons.mp h
      have hall := hb.append_spaced hmore
      exact ⟨hall.run, hall.paragraph⟩

/-- A block in braces, with lines in front of it. What is in the block need not be tidy with what is around
it, because the braces are in between. -/
theorem braced (hheader : isBlank (header ++ " \x7b") = false) (hfirst : closes (header ++ " \x7b") = false)
    (hlast : opens "\x7d" = false) (htexts : ∀ t ∈ texts, isBlank t = false ∧ closes t = false)
    (hlevel : ∀ d, (Margin.run ⟨d, false⟩ body).depth = d)
    (hbody : ∀ d, Tidy opens closes (rowTexts ⟨d, false⟩ body)) :
    Neat opens closes (texts.map .line ++ braced header body) where
  run d := by
    have htexts := level_lines (forall_mem_map_line texts) ⟨d, false⟩
    rw [Margin.run_append, UmlSkeleton.braced, Margin.run_append]
    show (⟨(Margin.run ⟨_, false⟩ body).depth - 1, true⟩ : Margin) = _
    rw [hlevel, htexts]
    rfl
  paragraph d := by
    have hrows : rowTexts ⟨d, false⟩ (texts.map .line ++ UmlSkeleton.braced header body) =
        texts ++ [header ++ " \x7b"] ++
          (rowTexts ⟨(Margin.run ⟨d, false⟩ (texts.map .line)).depth + 1, false⟩ body ++ ["\x7d"]) := by
      rw [rowTexts_append, rowTexts_lines, rowTexts_braced, List.append_assoc, List.singleton_append]
    have hclose : Tidy opens closes ["\x7d"] := by
      apply tidy_of_not_blank
      rw [List.forall_mem_singleton]
      decide
    have hfront : Tidy opens closes (texts ++ [header ++ " \x7b"]) := by
      apply tidy_of_not_blank
      rw [List.forall_mem_append, List.forall_mem_singleton]
      exact ⟨fun t ht => (htexts t ht).1, hheader⟩
    rw [hrows]
    refine ⟨hfront.append ((hbody _).append hclose), by simp, fun l hl => ?_, fun l hl => ?_⟩
    · cases texts with
      | nil =>
          cases hl
          exact hfirst
      | cons t texts =>
          cases hl
          exact (htexts l (List.mem_cons_self ..)).2
    · rw [← List.append_assoc, List.getLast?_concat] at hl
      cases hl
      exact hlast

/-- A block that ends where its indentation does. -/
theorem indented (hheader : isBlank header = false) (hfirst : closes header = false)
    (hbody : Neat opens closes body) : Neat opens closes (indented header body) where
  run d := by
    rw [UmlSkeleton.indented, Margin.run_append]
    show Step.after (Margin.run ⟨d + 1, false⟩ body) .dedent = _
    rw [hbody.run]
    rfl
  paragraph d := by
    have hlines := hbody.paragraph (d + 1)
    have htidy : Tidy opens closes [header] := by
      apply tidy_of_not_blank
      rwa [List.forall_mem_singleton]
    rw [rowTexts_indented]
    refine ⟨htidy.append hlines.toTidy, by simp, fun l hl => ?_, fun l hl => ?_⟩
    · cases hl
      exact hfirst
    · rw [← List.singleton_append, List.getLast?_append_of_ne_nil _ hlines.ne_nil] at hl
      exact hlines.last_not_opens l hl

end Neat

/-- The steps are neat, or there are none. -/
def NeatIfAny (opens closes : String → Bool) (steps : List Step) : Prop := steps = [] ∨ Neat opens closes steps

namespace NeatIfAny

variable {steps last : List Step} {blocks : List (List Step)}

theorem nil : NeatIfAny opens closes [] := .inl rfl

/-- What is written for each of some items. -/
theorem flatMap {items : List α} {f : α → List Step}
    (h : items ≠ [] → Neat opens closes (items.flatMap f)) : NeatIfAny opens closes (items.flatMap f) := by
  cases items with
  | nil => exact nil
  | cons a items => exact .inr (h (by simp))

theorem neat_append_spaced (hsteps : NeatIfAny opens closes steps) (h : ∀ b ∈ blocks, Neat opens closes b)
    (hne : blocks ≠ []) : Neat opens closes (steps ++ spaced blocks) := by
  rcases hsteps with rfl | hsteps
  · exact Neat.spaced h hne
  · exact hsteps.append_spaced h

theorem append_spaced (hsteps : NeatIfAny opens closes steps) (h : ∀ b ∈ blocks, Neat opens closes b) :
    NeatIfAny opens closes (steps ++ spaced blocks) := by
  cases blocks with
  | nil =>
      rw [spaced, List.flatMap_nil, List.append_nil]
      exact hsteps
  | cons b blocks => exact .inr (hsteps.neat_append_spaced h (by simp))

theorem tidy (hsteps : NeatIfAny opens closes steps) : Tidy opens closes (rowTexts .start steps) := by
  rcases hsteps with rfl | hsteps
  · exact tidy_of_not_blank (List.forall_mem_nil _)
  · exact (hsteps.paragraph 0).toTidy

/-- What comes last, after a gap, may end like something that opens a block. -/
theorem tidy_append_gap (hsteps : NeatIfAny opens closes steps)
    (hlast : Tidy opens closes (rowTexts .start last)) (hne : rowTexts .start last ≠ [])
    (hfirst : ∀ l ∈ (rowTexts .start last).head?, closes l = false) :
    Tidy opens closes (rowTexts .start (steps ++ .gap :: last)) := by
  rcases hsteps with rfl | hsteps
  · exact hlast
  · have hrun : Margin.run .start steps = ⟨0, true⟩ := hsteps.run 0
    rw [rowTexts_append, hrun]
    exact (hsteps.paragraph 0).append_blank hlast hne hfirst

end NeatIfAny

/-! ## Rows as lines -/

/-- Steps in the middle write their lines in the middle. -/
theorem infix_linesOf (w : Nat) (m : Margin) {before steps after : List Step} :
    linesOf w (m.run before) steps <:+: linesOf w m (before ++ steps ++ after) := by
  rw [linesOf_append, linesOf_append]
  exact ⟨linesOf w m before, _, rfl⟩

theorem intercalate_blank_cons (ls : List String) (parts : List (List String)) :
    [""].intercalate (ls :: parts) = ls ++ parts.flatMap ("" :: ·) := by
  induction parts generalizing ls with
  | nil => simp [List.intercalate]
  | cons more parts ih =>
      rw [List.flatMap_cons, List.cons_append, ← ih more]
      simp [List.intercalate]

/-- Where siblings are written, their lines have one blank line between them. -/
theorem Neat.intercalate_suffix_linesOf {blocks : List (List Step)} (h : ∀ b ∈ blocks, Neat opens closes b)
    (w : Nat) (m : Margin) :
    [""].intercalate (blocks.map (linesOf w ⟨m.depth, false⟩)) <:+ linesOf w m (UmlSkeleton.spaced blocks) := by
  cases blocks with
  | nil => exact List.nil_suffix
  | cons b blocks =>
      obtain ⟨hb, hmore⟩ := List.forall_mem_cons.mp h
      have hlines : linesOf w ⟨m.depth, true⟩ (UmlSkeleton.spaced blocks) =
          (blocks.map (linesOf w ⟨m.depth, false⟩)).flatMap ("" :: ·) := by
        rw [linesOf, rows_spaced fun b hb => (hmore b hb).run m.depth, List.map_flatMap, List.flatMap_map]
        rfl
      have hgap : m.run [.gap] = ⟨m.depth, false⟩ := rfl
      rw [List.map_cons, intercalate_blank_cons, ← hlines, ← hb.run m.depth, ← hgap, ← linesOf_append]
      exact ⟨linesOf w m [.gap], (linesOf_append ..).symm⟩

section
variable {m : Margin} {steps : List Step} {w : Nat}

theorem exists_row_of_head? (hl : l ∈ (linesOf w m steps).head?) :
    ∃ row : Row, l = row.line w ∧ row.text ∈ (rowTexts m steps).head? := by
  rw [linesOf, List.head?_map] at hl
  obtain ⟨row, hrow, rfl⟩ := Option.map_eq_some_iff.mp hl
  rw [rowTexts, List.head?_map, hrow]
  exact ⟨row, rfl, rfl⟩

theorem exists_row_of_getLast? (hl : l ∈ (linesOf w m steps).getLast?) :
    ∃ row : Row, l = row.line w ∧ row.text ∈ (rowTexts m steps).getLast? := by
  rw [linesOf, List.getLast?_map] at hl
  obtain ⟨row, hrow, rfl⟩ := Option.map_eq_some_iff.mp hl
  rw [rowTexts, List.getLast?_map, hrow]
  exact ⟨row, rfl, rfl⟩

variable (hopens : ∀ row : Row, opens (row.line w) = opens row.text)
  (hcloses : ∀ row : Row, closes (row.line w) = closes row.text)
include hopens hcloses

/-- Rows whose texts are tidy are tidy lines, if indentation does not matter to what opens and closes. -/
theorem Tidy.linesOf (h : Tidy opens closes (rowTexts m steps)) :
    Tidy opens closes (linesOf w m steps) where
  eq_empty := by
    have htexts := h.eq_empty
    rw [rowTexts, List.forall_mem_map] at htexts
    rw [UmlSkeleton.linesOf, List.forall_mem_map]
    intro row hrow hblank
    rw [isBlank_line] at hblank
    exact if_pos (htexts row hrow hblank)
  first l hl := by
    obtain ⟨row, rfl, hrow⟩ := exists_row_of_head? hl
    rw [isBlank_line, h.first _ hrow]
  last l hl := by
    obtain ⟨row, rfl, hrow⟩ := exists_row_of_getLast? hl
    rw [isBlank_line, h.last _ hrow]
  chain := by
    have hchain := h.chain
    rw [rowTexts, List.isChain_map] at hchain
    rw [UmlSkeleton.linesOf, List.isChain_map]
    refine hchain.imp fun a b hab => ?_
    unfold Apart at *
    rwa [isBlank_line, isBlank_line, hopens, hcloses]

theorem Paragraph.linesOf (h : Paragraph opens closes (rowTexts m steps)) :
    Paragraph opens closes (linesOf w m steps) where
  toTidy := h.toTidy.linesOf hopens hcloses
  ne_nil hnil := by
    have hrows : rows m steps = [] := List.map_eq_nil_iff.mp hnil
    exact h.ne_nil (List.map_eq_nil_iff.mpr hrows)
  first_not_closes l hl := by
    obtain ⟨row, rfl, hrow⟩ := exists_row_of_head? hl
    rw [hcloses, h.first_not_closes _ hrow]
  last_not_opens l hl := by
    obtain ⟨row, rfl, hrow⟩ := exists_row_of_getLast? hl
    rw [hopens, h.last_not_opens _ hrow]

end

/-! ## Pages with two blank lines between parts -/

/-- Where paragraphs have two blank lines before each, no blank line is below one that opens a block. -/
theorem isChain_two_blanks {parts : List (List String)} (hempty : opens "" = false)
    (hx : Paragraph opens closes xs) (h : ∀ ys ∈ parts, Paragraph opens closes ys) :
    (xs ++ parts.flatMap ("" :: "" :: ·)).IsChain fun a b => opens a = true → isBlank b = false := by
  have hchain {ls : List String} (hls : Paragraph opens closes ls) :
      ls.IsChain fun a b => opens a = true → isBlank b = false := by
    refine hls.chain.imp fun a b hab hopen => ?_
    by_contra hblank
    rw [(hab.1 (by simpa using hblank)).2] at hopen
    cases hopen
  induction parts generalizing xs with
  | nil =>
      rw [List.flatMap_nil, List.append_nil]
      exact hchain hx
  | cons ys parts ih =>
      obtain ⟨hy, hparts⟩ := List.forall_mem_cons.mp h
      have hmore := ih hy hparts
      have hnot : opens "" = true → False := fun hopen => by rw [hempty] at hopen; cases hopen
      rw [List.flatMap_cons, List.cons_append, List.cons_append, List.isChain_append, List.isChain_cons,
        List.isChain_cons]
      refine ⟨hchain hx, ⟨fun _ _ hopen => (hnot hopen).elim, fun _ _ hopen => (hnot hopen).elim, hmore⟩, ?_⟩
      intro a ha b _ hopen
      rw [hx.last_not_opens a ha] at hopen
      cases hopen

/-- The lines of neat sections with a separator before each that leaves two blank lines. -/
theorem linesOf_two_blanks {parts : List (List Step)} (w : Nat) (h : ∀ s ∈ parts, Neat opens closes s) :
    linesOf w ⟨0, true⟩ (parts.flatMap ([.gap, .blank] ++ ·)) =
      (parts.map (linesOf w .start)).flatMap ("" :: "" :: ·) := by
  have hseparator : Margin.run ⟨0, true⟩ [.gap, .blank] = ⟨0, false⟩ := rfl
  rw [linesOf, rows_siblings hseparator fun s hs => (h s hs).run 0, List.map_flatMap, List.flatMap_map]
  rfl

end UmlSkeleton

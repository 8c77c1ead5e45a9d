import UmlSkeleton.Proofs.Python.Source
import UmlSkeleton.Skeleton.Block

/-!
# Layouts as Python source

A row says what its text says, and is as far in as its depth; so whether the lines of a layout are
headers, statements or neither is seen from the texts alone.

* `Flush`, `Plain`, `Title` — what a text has to begin with.
* `Part` — what the steps of a block contribute to the headers without a statement, wherever the block
  stands. Parts are put together like layouts: one after the other, and one below a header.
-/

namespace UmlSkeleton.Python

open Text

/-! ## Rows -/

section
variable (w : Nat) (row : Row)

theorem content_line : content (row.line w) = content row.text := by
  unfold Row.line content
  split
  · next h => rw [h]
  · rw [String.toList_append, String.toList_ofList, List.dropWhile_append_of_pos (by simp)]

/-- A row is as far in as its depth says, and its own spaces. -/
theorem indentation_line {w d : Nat} {text : String} (h : text ≠ "") :
    indentation (Row.line w ⟨d, text⟩) = d * w + indentation text := by
  rw [indentation, Row.line_of_ne w d h, String.toList_append, String.toList_ofList,
    List.takeWhile_append_of_pos (by simp), List.length_append, List.length_replicate, indentation]

@[simp] theorem isBlank_line : isBlank (row.line w) = isBlank row.text := by
  rw [isBlank, content_line, isBlank]

@[simp] theorem isComment_line : isComment (row.line w) = isComment row.text := by
  rw [isComment, content_line, isComment]

@[simp] theorem isStatement_line : isStatement (row.line w) = isStatement row.text := by
  rw [isStatement, isBlank_line, isComment_line, isStatement]

@[simp] theorem isQuotes_line : isQuotes (row.line w) = isQuotes row.text := by
  rw [isQuotes, content_line, isQuotes]

@[simp] theorem isHeader_line : isHeader (row.line w) = isHeader row.text := by
  rw [isHeader, content_line, isHeader]

end

/-! ## What texts begin with -/

/-- The text has no space in front. -/
def Flush (text : String) : Prop := ∃ c, text.toList.head? = some c ∧ c ≠ ' '

/-- The text is neither a header nor quotation marks. -/
def Quiet (text : String) : Prop := isQuotes text = false ∧ isHeader text = false

/-- The text begins with none of the characters with which headers, docstrings and comments begin. -/
def Plain (text : String) : Prop := ∃ c, text.toList.head? = some c ∧ c ∉ [' ', '"', '#', 'c', 'd']

namespace Flush

variable {text : String} (h : Flush text)
include h

theorem exists_cons : ∃ c rest, text.toList = c :: rest ∧ c ≠ ' ' := by
  obtain ⟨c, hhead, hc⟩ := h
  obtain ⟨rest, hrest⟩ := List.head?_eq_some_iff.mp hhead
  exact ⟨c, rest, hrest, hc⟩

theorem content_eq : content text = text.toList := by
  obtain ⟨c, rest, hchars, hc⟩ := h.exists_cons
  rw [content, hchars, List.dropWhile_cons_of_neg (by simpa using hc)]

theorem isBlank : isBlank text = false := by
  obtain ⟨c, rest, hchars, -⟩ := h.exists_cons
  rw [Python.isBlank, h.content_eq, hchars]
  rfl

theorem ne_empty : text ≠ "" := by
  rintro rfl
  obtain ⟨c, hhead, -⟩ := h
  cases hhead

theorem indentation_eq : indentation text = 0 := by
  obtain ⟨c, rest, hchars, hc⟩ := h.exists_cons
  rw [indentation, hchars, List.takeWhile_cons_of_neg (by simpa using hc), List.length_nil]

/-- The text is as far in as its row. -/
theorem indentation_line (w d : Nat) : indentation (Row.line w ⟨d, text⟩) = d * w := by
  rw [Python.indentation_line h.ne_empty, h.indentation_eq, Nat.add_zero]

/-- A text that is one deep at most ends the blocks at the first level. -/
theorem endsBlock {d : Nat} (hd : d ≤ 1) (w : Nat) (rest : List String) :
    EndsBlock w (Row.line w ⟨d, text⟩ :: rest) := by
  refine endsBlock_cons ?_ ?_ rest
  · rw [isBlank_line]
    exact h.isBlank
  · calc indentation (Row.line w ⟨d, text⟩) = d * w := h.indentation_line w d
      _ ≤ 1 * w := Nat.mul_le_mul_right w hd
      _ = w := Nat.one_mul w

theorem isStatement (hcomment : text.toList.head? ≠ some '#') : isStatement text = true := by
  have hno : isComment text = false := by
    rw [isComment, h.content_eq]
    exact decide_eq_false hcomment
  rw [Python.isStatement, h.isBlank, hno]
  rfl

end Flush

namespace Plain

variable {text : String} (h : Plain text)
include h

theorem flush : Flush text := by
  obtain ⟨c, hhead, hc⟩ := h
  exact ⟨c, hhead, fun heq => hc (by simp [heq])⟩

theorem isStatement : isStatement text = true := by
  obtain ⟨c, hhead, hc⟩ := id h
  refine h.flush.isStatement ?_
  rw [hhead]
  rintro ⟨⟩
  simp at hc

theorem quiet : Quiet text := by
  obtain ⟨c, hhead, hc⟩ := id h
  obtain ⟨rest, hchars⟩ := List.head?_eq_some_iff.mp hhead
  unfold Quiet isQuotes isHeader
  rw [h.flush.content_eq, hchars]
  simp only [List.mem_cons, not_or] at hc
  simp [hc, Ne.symm hc.2.2.2.1, Ne.symm hc.2.2.2.2.1]

end Plain

theorem flush_comment (rest : String) : Flush ("#" ++ rest) := ⟨'#', by simp, by decide⟩

theorem quiet_comment (rest : String) : Quiet ("#" ++ rest) := by
  unfold Quiet isQuotes isHeader
  rw [(flush_comment rest).content_eq, String.toList_append]
  simp

/-- What a text says has each of its characters but spaces. -/
theorem mem_content {text : String} {c : Char} (h : c ∈ text.toList) (hspace : c ≠ ' ') :
    c ∈ content text := by
  rw [← List.takeWhile_append_dropWhile (p := (· = ' ')) (l := text.toList)] at h
  rcases List.mem_append.mp h with h | h
  · have hall := List.all_eq_true.mp List.all_takeWhile c h
    exact absurd (of_decide_eq_true hall) hspace
  · exact h

/-- A text with another character in it than spaces and quotation marks is no quotation marks. -/
theorem isQuotes_of_mem {text : String} {c : Char} (h : c ∈ text.toList) (hspace : c ≠ ' ')
    (hquotes : c ≠ '"') : isQuotes text = false := by
  have hmem := mem_content h hspace
  rw [isQuotes, decide_eq_false_iff_not]
  intro heq
  simp [heq, hquotes] at hmem

/-! ## Titles -/

/-- The text of a header, with no space in front. -/
structure Title (text : String) : Prop where
  isHeader : isHeader text = true
  isStatement : isStatement text = true
  flush : Flush text

theorem title_append {front : String}
    (h : "class ".toList <+: front.toList ∨ "def ".toList <+: front.toList) : Title (front ++ ":") := by
  have hchars : (front ++ ":").toList = front.toList ++ [':'] := by simp
  have hhead : (front ++ ":").toList.head? = some 'c' ∨ (front ++ ":").toList.head? = some 'd' := by
    rw [hchars]
    rcases h with ⟨rest, hrest⟩ | ⟨rest, hrest⟩
    · left
      rw [← hrest]
      rfl
    · right
      rw [← hrest]
      rfl
  have hflush : Flush (front ++ ":") := by
    rcases hhead with hhead | hhead
    · exact ⟨_, hhead, by decide⟩
    · exact ⟨_, hhead, by decide⟩
  have hstatement : isStatement (front ++ ":") = true := by
    apply hflush.isStatement
    rcases hhead with hhead | hhead
    · rw [hhead]
      decide
    · rw [hhead]
      decide
  refine ⟨?_, hstatement, hflush⟩
  unfold isHeader
  rw [hflush.content_eq, hchars, List.getLast?_concat, decide_eq_true rfl, Bool.and_true,
    Bool.or_eq_true, List.isPrefixOf_iff_prefix, List.isPrefixOf_iff_prefix]
  exact h.imp (·.trans (List.prefix_append _ _)) (·.trans (List.prefix_append _ _))

/-! ## Steps that add nothing -/

/-- Steps that write neither headers nor quotation marks. -/
theorem silent_linesOf {w : Nat} {m : Margin} {steps : List Step} (h : EachText Quiet steps) :
    Silent (linesOf w m steps) := by
  apply silent_of_forall
  rw [linesOf, List.forall_mem_map]
  intro row hrow
  rw [isQuotes_line, isHeader_line]
  exact forall_mem_rows ⟨rfl, rfl⟩ h m row hrow

theorem silent_lines {w : Nat} {m : Margin} {texts : List String} (h : ∀ text ∈ texts, Quiet text) :
    Silent (linesOf w m (texts.map .line)) := silent_linesOf (eachText_map_line.mpr h)

/-! ## Parts -/

/-- A part of a layout at this depth. If what follows it ends every block that is open at the first level,
then it does so itself, and the headers without a statement that it adds are these. -/
structure Part (w d : Nat) (steps : List Step) (bare : List String) : Prop where
  level : Level steps
  endsBlock : ∀ due rest, EndsBlock w rest → EndsBlock w (linesOf w ⟨d, due⟩ steps ++ rest)
  bareHeaders : ∀ due rest, EndsBlock w rest →
    bareHeaders false (linesOf w ⟨d, due⟩ steps ++ rest) = bare ++ bareHeaders false rest

namespace Part

variable {w d : Nat} {xs ys steps : List Step} {a b bare : List String}

theorem nil : Part w d [] [] := ⟨level_nil, fun _ _ h => h, fun _ _ _ => rfl⟩

theorem append (hx : Part w d xs a) (hy : Part w d ys b) : Part w d (xs ++ ys) (a ++ b) := by
  have hrun (due : Bool) : Margin.run ⟨d, due⟩ xs = ⟨d, (Margin.run ⟨d, due⟩ xs).due⟩ := by
    have hdepth := hx.level ⟨d, due⟩
    cases hm : Margin.run ⟨d, due⟩ xs with
    | mk depth due' =>
        rw [hm] at hdepth
        cases hdepth
        rfl
  refine ⟨hx.level.append hy.level, ?_, ?_⟩
  · intro due rest h
    rw [linesOf_append, List.append_assoc, hrun]
    exact hx.endsBlock due _ (hy.endsBlock _ rest h)
  · intro due rest h
    rw [linesOf_append, List.append_assoc, hrun, hx.bareHeaders due _ (hy.endsBlock _ rest h),
      hy.bareHeaders _ rest h, List.append_assoc]

theorem flatMap {items : List α} {f : α → List Step} {g : α → List String}
    (h : ∀ i ∈ items, Part w d (f i) (g i)) : Part w d (items.flatMap f) (items.flatMap g) := by
  induction items with
  | nil => exact nil
  | cons i items ih =>
      rw [List.flatMap_cons, List.flatMap_cons]
      exact (h i (List.mem_cons_self ..)).append (ih fun j hj => h j (List.mem_cons_of_mem i hj))

/-- Silent steps that begin with a line that is hardly indented. -/
theorem of_silent (hd : d ≤ 1) (hlevel : Level steps)
    (hsilent : ∀ due, Silent (linesOf w ⟨d, due⟩ steps))
    (hfirst : ∀ due, ∃ text more,
      linesOf w ⟨d, due⟩ steps = Row.line w ⟨d, text⟩ :: more ∧ Flush text) :
    Part w d steps [] := by
  refine ⟨hlevel, ?_, ?_⟩
  · intro due rest _
    obtain ⟨text, more, hlines, hflush⟩ := hfirst due
    rw [hlines]
    exact hflush.endsBlock hd w _
  · intro due rest _
    exact hsilent due rest

/-- Lines that are neither headers nor quotation marks. -/
theorem lines (hd : d ≤ 1) {text : String} {texts : List String} (hflush : Flush text)
    (h : ∀ t ∈ text :: texts, Quiet t) : Part w d ((text :: texts).map .line) [] :=
  of_silent hd (level_lines (forall_mem_map_line _)) (fun _ => silent_lines h)
    fun _ => ⟨text, _, rfl, hflush⟩

/-- Blank lines end no block and begin none. -/
theorem blank : Part w d [.blank] [] where
  level _ := rfl
  endsBlock _ _ h := endsBlock_blank rfl h
  bareHeaders _ rest _ := silent_of_forall (List.forall_mem_singleton.mpr ⟨rfl, rfl⟩) rest

theorem gap : Part w d [.gap] [] where
  level _ := rfl
  endsBlock due rest h := by
    cases due with
    | true => exact blank.endsBlock true rest h
    | false => exact h
  bareHeaders due rest h := by
    cases due with
    | true => exact blank.bareHeaders true rest h
    | false => rfl

theorem stepsIf {condition : Bool} (h : Part w d steps []) : Part w d (stepsIf condition steps) [] := by
  cases condition with
  | false => exact nil
  | true => exact h

theorem spaced {items : List α} {f : α → List Step} {g : α → List String}
    (h : ∀ i ∈ items, Part w d (f i) (g i)) :
    Part w d (spaced (items.map f)) (items.flatMap g) := by
  rw [UmlSkeleton.spaced, List.flatMap_map]
  exact flatMap fun i hi => gap.append (h i hi)

end Part

/-! ## Blocks -/

section
variable {w d : Nat} (hw : 0 < w) (hd : d ≤ 1) {header : String} {body : List Step} {bare : List String}
  (ht : Title header) (hlevel : Level (indented header body))
  (hbare : ∀ rest, EndsBlock w rest →
    bareHeaders false (linesOf w ⟨d + 1, false⟩ body ++ rest) = bare ++ bareHeaders false rest)
include hw hd ht hlevel hbare

/-- A header adds nothing to what its body contributes, if there is a statement in the body, perhaps
after comments. -/
theorem part_indented {statement : String} {before after : List String}
    (hbody : linesOf w ⟨d + 1, false⟩ body = before ++ statement :: after)
    (hindent : ∀ line ∈ before ++ [statement], indentation line = (d + 1) * w)
    (hstatement : isStatement statement = true) : Part w d (indented header body) bare := by
  have hheader : isHeader (Row.line w ⟨d, header⟩) = true := by
    rw [isHeader_line]
    exact ht.isHeader
  have hfirst : indentation (Row.line w ⟨d, header⟩) = d * w := ht.flush.indentation_line w d
  have hdepth : d * w < (d + 1) * w := Nat.mul_lt_mul_of_pos_right (Nat.lt_succ_self d) hw
  refine ⟨hlevel, ?_, ?_⟩
  · intro due rest _
    rw [linesOf_indented]
    exact ht.flush.endsBlock hd w _
  · intro due rest hrest
    rw [linesOf_indented, ← hbare rest hrest, hbody, List.cons_append, List.append_assoc,
      List.cons_append]
    refine bareHeaders_header hheader hstatement ?_
    intro line hline
    rwa [hfirst, hindent line hline]

/-- A body that begins with a statement. -/
theorem part_indented_first {text : String} {more : List String}
    (hbody : linesOf w ⟨d + 1, false⟩ body = Row.line w ⟨d + 1, text⟩ :: more) (hflush : Flush text)
    (hstatement : isStatement text = true) : Part w d (indented header body) bare := by
  have hlines : linesOf w ⟨d + 1, false⟩ body = [] ++ Row.line w ⟨d + 1, text⟩ :: more := hbody
  have hline : isStatement (Row.line w ⟨d + 1, text⟩) = true := by
    rw [isStatement_line]
    exact hstatement
  refine part_indented hw hd ht hlevel hbare hlines ?_ hline
  exact List.forall_mem_singleton.mpr (hflush.indentation_line w (d + 1))

end

end UmlSkeleton.Python

import UmlSkeleton.Proofs.Layout.Lines

/-!
# Headers and their blocks in Python source

A line that begins a class or a function is the header of a block. The block is made of the lines below
that are further in, up to the first one that is not; blank lines belong to any block. Python wants a
statement in it, and a comment is none. Between lines of three quotation marks stands a docstring, where
nothing is a header whatever it looks like.

This module says so of any list of lines, and finds the headers whose blocks have no statement.

* `HasBodies` — every header has a statement in its block.
* `bareHeaders` — those that have none, in one pass over the lines (`hasBodies_iff_bareHeaders`).
* `Silent` — lines that add nothing to them, whatever follows.
-/

namespace UmlSkeleton.Python

/-! ## Lines -/

/-- What a line says, without the spaces in front of it. -/
def content (line : String) : List Char := line.toList.dropWhile (· = ' ')

/-- The number of spaces in front of a line. -/
def indentation (line : String) : Nat := (line.toList.takeWhile (· = ' ')).length

/-- The line says nothing. -/
def isBlank (line : String) : Bool := (content line).isEmpty

def isComment (line : String) : Bool := (content line).head? = some '#'

/-- The line is neither blank nor a comment. -/
def isStatement (line : String) : Bool := !isBlank line && !isComment line

/-- The line begins or ends a docstring. -/
def isQuotes (line : String) : Bool := content line = ['"', '"', '"']

/-- The line reads `class ...:` or `def ...:`. -/
def isHeader (line : String) : Bool :=
  ("class ".toList.isPrefixOf (content line) || "def ".toList.isPrefixOf (content line)) &&
    (content line).getLast? = some ':'

/-! ## Blocks -/

/-- The lines below a header with this indentation that are in its block. -/
def blockBelow (indent : Nat) (lines : List String) : List String :=
  lines.takeWhile fun line => isBlank line || indent < indentation line

/-- After these lines a docstring is open. -/
def inDocstring (before : List String) : Bool := before.countP isQuotes % 2 = 1

/-- Every header outside of docstrings has a statement in its block. -/
def HasBodies (lines : List String) : Prop :=
  ∀ before header after, lines = before ++ header :: after → inDocstring before = false →
    isHeader header = true → ∃ line ∈ blockBelow (indentation header) after, isStatement line = true

/-- The line is a header, and there is no statement in its block. -/
def isBare (line : String) (after : List String) : Bool :=
  isHeader line && !(blockBelow (indentation line) after).any isStatement

/-- The headers without a statement, in order; `quoted` tells whether a docstring is open. -/
def bareHeaders (quoted : Bool) : List String → List String
  | [] => []
  | line :: more =>
    (if !quoted && isBare line more then [line] else []) ++ bareHeaders (quoted ^^ isQuotes line) more

example : bareHeaders false ["class A:", "    pass", "class B:", "    # todo", "class C:"] =
    ["class B:", "class C:"] := by decide

theorem inDocstring_cons (line : String) (before : List String) :
    inDocstring (line :: before) = (isQuotes line ^^ inDocstring before) := by
  unfold inDocstring
  cases hline : isQuotes line with
  | true =>
      rw [List.countP_cons_of_pos hline]
      rcases Nat.mod_two_eq_zero_or_one (before.countP isQuotes) with h | h
      · simp [h, Nat.add_mod]
      · simp [h, Nat.add_mod]
  | false => simp [List.countP_cons_of_neg, hline]

theorem bareHeaders_eq_nil_iff (quoted : Bool) (lines : List String) :
    bareHeaders quoted lines = [] ↔
      ∀ before header after, lines = before ++ header :: after → (quoted ^^ inDocstring before) = false →
        isBare header after = false := by
  induction lines generalizing quoted with
  | nil => simp [bareHeaders]
  | cons line more ih =>
      rw [bareHeaders, List.append_eq_nil_iff, ih]
      constructor
      · rintro ⟨hline, hmore⟩ before header after hsplit hopen
        cases before with
        | nil =>
            obtain ⟨rfl, rfl⟩ := List.cons.inj hsplit
            have hquoted : quoted = false := by simpa [inDocstring] using hopen
            simpa [hquoted] using hline
        | cons first before =>
            obtain ⟨rfl, rfl⟩ := List.cons.inj hsplit
            refine hmore before header after rfl ?_
            rwa [Bool.xor_assoc, ← inDocstring_cons]
      · intro h
        constructor
        · cases quoted with
          | true => rfl
          | false => simp [h [] line more rfl rfl]
        · intro before header after hsplit hopen
          refine h (line :: before) header after (by rw [hsplit]; rfl) ?_
          rwa [inDocstring_cons, ← Bool.xor_assoc]

theorem hasBodies_iff_bareHeaders {lines : List String} :
    HasBodies lines ↔ bareHeaders false lines = [] := by
  rw [bareHeaders_eq_nil_iff]
  refine forall_congr' fun before => forall_congr' fun header => forall_congr' fun after => ?_
  simp [isBare]

/-! ## Lines that add nothing -/

/-- The lines leave no docstring open, and whatever follows, no header among them is without a
statement. -/
def Silent (ls : List String) : Prop :=
  ∀ rest, bareHeaders false (ls ++ rest) = bareHeaders false rest

theorem Silent.append {xs ys : List String} (hx : Silent xs) (hy : Silent ys) :
    Silent (xs ++ ys) := by
  intro rest
  rw [List.append_assoc, hx, hy]

theorem bareHeaders_append_of_forall {quoted : Bool} {ls : List String}
    (h : ∀ line ∈ ls, isQuotes line = false ∧ (quoted = false → isHeader line = false))
    (rest : List String) : bareHeaders quoted (ls ++ rest) = bareHeaders quoted rest := by
  induction ls with
  | nil => rfl
  | cons line ls ih =>
      obtain ⟨hquotes, hheader⟩ := h line (List.mem_cons_self ..)
      have hbare : (!quoted && isBare line (ls ++ rest)) = false := by
        cases quoted with
        | true => rfl
        | false => simp [isBare, hheader rfl]
      rw [List.cons_append, bareHeaders, hbare, hquotes, Bool.xor_false,
        ih fun l hl => h l (List.mem_cons_of_mem line hl)]
      rfl

/-- Lines that are neither headers nor quotation marks. -/
theorem silent_of_forall {ls : List String}
    (h : ∀ line ∈ ls, isQuotes line = false ∧ isHeader line = false) : Silent ls :=
  bareHeaders_append_of_forall fun line hline => ⟨(h line hline).1, fun _ => (h line hline).2⟩

theorem isHeader_of_isQuotes {line : String} (h : isQuotes line = true) : isHeader line = false := by
  have hcontent : content line = ['"', '"', '"'] := of_decide_eq_true h
  rw [isHeader, hcontent]
  rfl

theorem isQuotes_of_isHeader {line : String} (h : isHeader line = true) : isQuotes line = false := by
  cases hquotes : isQuotes line with
  | false => rfl
  | true =>
      rw [isHeader_of_isQuotes hquotes] at h
      cases h

/-- A docstring, whatever it says. -/
theorem silent_docstring {first last : String} {text : List String} (hfirst : isQuotes first = true)
    (hlast : isQuotes last = true) (h : ∀ line ∈ text, isQuotes line = false) :
    Silent (first :: text ++ [last]) := by
  intro rest
  have htext : bareHeaders true (text ++ last :: rest) = bareHeaders true (last :: rest) :=
    bareHeaders_append_of_forall (fun line hline => ⟨h line hline, fun hq => by cases hq⟩) _
  rw [List.append_assoc, List.cons_append, List.singleton_append, bareHeaders, isBare,
    isHeader_of_isQuotes hfirst, hfirst]
  show bareHeaders true (text ++ last :: rest) = _
  rw [htext, bareHeaders, hlast]
  rfl

/-- A header is not bare if there is a statement below it that is further in, and nothing before that
ends the block. -/
theorem bareHeaders_header {header statement : String} {before after : List String}
    (hheader : isHeader header = true) (hstatement : isStatement statement = true)
    (hindent : ∀ line ∈ before ++ [statement], indentation header < indentation line) :
    bareHeaders false (header :: (before ++ statement :: after)) =
      bareHeaders false (before ++ statement :: after) := by
  have hmem : statement ∈ blockBelow (indentation header) (before ++ statement :: after) := by
    rw [List.append_cons, blockBelow, List.takeWhile_append_of_pos]
    · simp
    · intro line hline
      simp [hindent line hline]
  have hbare : isBare header (before ++ statement :: after) = false := by
    have hany := List.any_eq_true.mpr ⟨statement, hmem, hstatement⟩
    rw [isBare, hany, Bool.not_true, Bool.and_false]
  rw [bareHeaders, hbare, isQuotes_of_isHeader hheader]
  rfl

/-! ## Where a block ends -/

/-- The lines end a block at this indentation: blank ones aside, the first of them is not further
in. -/
def EndsBlock (indent : Nat) (rest : List String) : Prop :=
  ∀ line ∈ blockBelow indent rest, isBlank line = true

theorem endsBlock_nil (indent : Nat) : EndsBlock indent [] := by simp [EndsBlock, blockBelow]

theorem endsBlock_blank {indent : Nat} {line : String} {rest : List String}
    (hblank : isBlank line = true) (h : EndsBlock indent rest) : EndsBlock indent (line :: rest) := by
  unfold EndsBlock blockBelow
  rw [List.takeWhile_cons_of_pos (by simp [hblank]), List.forall_mem_cons]
  exact ⟨hblank, h⟩

theorem endsBlock_cons {indent : Nat} {line : String} (hblank : isBlank line = false)
    (hindent : indentation line ≤ indent) (rest : List String) : EndsBlock indent (line :: rest) := by
  unfold EndsBlock blockBelow
  rw [List.takeWhile_cons_of_neg (by simp [hblank, hindent])]
  simp

theorem mem_blockBelow_cons {indent : Nat} {line first : String} {rest : List String}
    (h : line ∈ blockBelow indent (first :: rest)) : line = first ∨ line ∈ blockBelow indent rest := by
  unfold blockBelow at h
  rw [List.takeWhile_cons] at h
  split at h
  · exact List.mem_cons.mp h
  · cases h

/-- A header with nothing but a comment below it is bare once its block ends. -/
theorem bareHeaders_stub {header comment : String} {rest : List String}
    (hheader : isHeader header = true) (hcomment : isComment comment = true)
    (hquiet : isQuotes comment = false ∧ isHeader comment = false)
    (hends : EndsBlock (indentation header) rest) :
    bareHeaders false (header :: comment :: rest) = header :: bareHeaders false rest := by
  have hnone : (blockBelow (indentation header) (comment :: rest)).any isStatement = false := by
    rw [List.any_eq_false]
    intro line hline
    rcases mem_blockBelow_cons hline with rfl | hline
    · simp [isStatement, hcomment]
    · simp [isStatement, hends line hline]
  have hrest : bareHeaders false ([comment] ++ rest) = bareHeaders false rest :=
    silent_of_forall (List.forall_mem_singleton.mpr hquiet) rest
  rw [bareHeaders, isBare, hheader, hnone, isQuotes_of_isHeader hheader]
  exact congrArg ([header] ++ ·) hrest

end UmlSkeleton.Python

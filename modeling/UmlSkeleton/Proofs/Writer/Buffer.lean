import UmlSkeleton.Json.Fault
import UmlSkeleton.Proofs.Layout.Size
import UmlSkeleton.Writer

/-!
# What a buffer takes

A buffer takes a text if there is room for it or memory for a larger buffer, and then the text stands at its
end and nothing else is different. A row is not always taken as it is: a machine that does not check its
arithmetic writes what is left of the indentation in a word. This module says for each operation of a buffer
what it leaves behind if it comes to its end, and why it may not.

* `Row.lineOn` — a row as a line, the way a machine writes it.
* `Row.lineOn_eq_line_iff` — it is the row itself exactly if its indentation is a word.
* `Buffer.pushRow?_eq_ok`, `Buffer.pushRow?_eq_error` — both ends of writing a row.
-/

namespace UmlSkeleton

open Text

theorem error_or_of_bind_eq_error {x : Except ε α} {f : α → Except ε β} {e : ε} (h : x >>= f = .error e) :
    x = .error e ∨ ∃ a, x = .ok a ∧ f a = .error e := by
  cases x with
  | error e' =>
      cases h
      exact .inl rfl
  | ok a => exact .inr ⟨a, rfl, h⟩

variable {machine : Machine} {halt : Halt} {n k width : Nat}

/-! ## Words and room -/

namespace Machine

theorem word_of_lt (h : n < UInt64.size) : machine.word n = .ok n := if_pos h

theorem word_eq_ok (h : machine.word n = .ok k) :
    k = n % UInt64.size ∧ (machine.checked = true → n < UInt64.size) := by
  unfold word at h
  split at h
  · next hlt =>
      cases h
      exact ⟨(Nat.mod_eq_of_lt hlt).symm, fun _ => hlt⟩
  split at h
  · cases h
  · next hchecked =>
      cases h
      exact ⟨rfl, fun h => absurd h hchecked⟩

theorem word_eq_error (h : machine.word n = .error halt) :
    halt = .overflow ∧ machine.checked = true ∧ UInt64.size ≤ n := by
  unfold word at h
  split at h
  · cases h
  · next hge =>
      split at h
      · next hchecked =>
          cases h
          exact ⟨rfl, hchecked, Nat.not_lt.mp hge⟩
      · cases h

theorem le_of_allocate (h : machine.allocate n = .ok ()) : n ≤ maxCapacity := by
  unfold allocate at h
  split at h
  · cases h
  · next hle => exact Nat.not_lt.mp hle

/-- There is no room for some buffer that a text of so many bytes may ask for. -/
def Lacks (machine : Machine) (size : Nat) (halt : Halt) : Prop :=
  ∃ capacity ≤ max (2 * size) leastCapacity, machine.allocate capacity = .error halt

theorem Lacks.mono (h : machine.Lacks n halt) (hle : n ≤ k) : machine.Lacks k halt := by
  obtain ⟨capacity, hcapacity, hallocate⟩ := h
  exact ⟨capacity, by omega, hallocate⟩

/-- Where memory is granted, there is room for every text of half the size of the largest buffer. -/
theorem not_lacks_of_grants (hgrants : ∀ capacity, machine.grants capacity = true)
    (hsize : 2 * n ≤ maxCapacity) : ¬ machine.Lacks n halt := by
  rintro ⟨capacity, hcapacity, hallocate⟩
  have hleast : leastCapacity ≤ maxCapacity := by decide
  unfold allocate at hallocate
  rw [if_neg (by omega), if_pos (hgrants capacity)] at hallocate
  cases hallocate

end Machine

/-! ## Buffers -/

namespace Buffer

variable {b b' : Buffer} {text : String} {row : Row} {row? : Option Row}

/-- The text is in the room that the buffer has, and no buffer has more. -/
def Sound (b : Buffer) : Prop := b.text.utf8ByteSize ≤ b.capacity ∧ b.capacity ≤ maxCapacity

theorem sound_empty : empty.Sound := ⟨Nat.le_refl 0, Nat.zero_le _⟩

theorem reserve_eq_ok (h : b.reserve machine n = .ok b') :
    b'.text = b.text ∧ b.text.utf8ByteSize + n ≤ b'.capacity ∧
      (b.capacity ≤ maxCapacity → b'.capacity ≤ maxCapacity) := by
  unfold reserve at h
  dsimp only at h
  split at h
  · next hroom =>
      cases h
      exact ⟨rfl, hroom, id⟩
  · obtain ⟨_, hallocate, h⟩ := Json.exists_of_bind_eq_ok h
    cases h
    exact ⟨rfl, by dsimp only; omega, fun _ => Machine.le_of_allocate hallocate⟩

theorem reserve_eq_error (h : b.reserve machine n = .error halt) :
    machine.Lacks (b.text.utf8ByteSize + n) halt := by
  unfold reserve at h
  dsimp only at h
  split at h
  · cases h
  · rcases error_or_of_bind_eq_error h with hallocate | ⟨_, -, h⟩
    · exact ⟨_, by omega, hallocate⟩
    · cases h

theorem push_eq_ok (h : b.push machine text = .ok b') :
    b'.text = b.text ++ text ∧ (b.Sound → b'.Sound) := by
  obtain ⟨r, hr, h⟩ := Json.exists_of_bind_eq_ok h
  cases h
  obtain ⟨htext, hroom, hcapacity⟩ := reserve_eq_ok hr
  refine ⟨by rw [htext], fun hsound => ⟨?_, hcapacity hsound.2⟩⟩
  show (r.text ++ text).utf8ByteSize ≤ r.capacity
  rwa [htext, String.utf8ByteSize_append]

theorem push_eq_error (h : b.push machine text = .error halt) :
    machine.Lacks (b.text.utf8ByteSize + text.utf8ByteSize) halt := by
  rcases error_or_of_bind_eq_error h with hr | ⟨_, -, h⟩
  · exact reserve_eq_error hr
  · cases h

/-- Spaces are pushed like any text. -/
theorem pad_eq_push (machine : Machine) (n : Nat) (b : Buffer) :
    b.pad machine n = b.push machine (String.ofList (List.replicate n ' ')) := by
  unfold pad push
  rw [utf8ByteSize_spaces]

end Buffer

/-! ## Rows -/

/-- The indentation of the row is a word, if it has one. -/
def Row.Fits (width : Nat) (row : Row) : Prop := row.text ≠ "" → row.depth * width < UInt64.size

instance (width : Nat) (row : Row) : Decidable (row.Fits width) := inferInstanceAs (Decidable (_ → _))

/-- A row as a machine writes it, without the end of its line: the indentation is what a word can hold of it. -/
def Row.lineOn (width : Nat) (row : Row) : String :=
  if row.text = "" then ""
  else String.ofList (List.replicate (row.depth * width % UInt64.size) ' ') ++ row.text

/-- The row with its indentation as a machine counts it. -/
def Row.counted (width : Nat) (row : Row) : Row := ⟨row.depth * width % UInt64.size, row.text⟩

theorem Row.line_counted (width : Nat) (row : Row) : (row.counted width).line 1 = row.lineOn width := by
  simp [Row.line, Row.lineOn, Row.counted]

/-- The indentation is a word exactly if a machine writes the row as it is. -/
theorem Row.lineOn_eq_line_iff (row : Row) : row.lineOn width = row.line width ↔ row.Fits width := by
  unfold lineOn line Fits
  by_cases htext : row.text = ""
  · simp [htext]
  · rw [if_neg htext, if_neg htext]
    constructor
    · intro h _
      have hsizes := congrArg String.utf8ByteSize h
      rw [String.utf8ByteSize_append, String.utf8ByteSize_append, utf8ByteSize_spaces,
        utf8ByteSize_spaces] at hsizes
      have hlt : row.depth * width % UInt64.size < UInt64.size := Nat.mod_lt _ (by decide)
      omega
    · intro h
      rw [Nat.mod_eq_of_lt (h htext)]

/-- On a machine a row is no longer than it is. -/
theorem Row.utf8ByteSize_lineOn_le (width : Nat) (row : Row) :
    (row.lineOn width ++ "\n").utf8ByteSize ≤ row.size width := by
  have hle : row.depth * width % UInt64.size ≤ row.depth * width := Nat.mod_le ..
  have hend : ("\n" : String).utf8ByteSize = 1 := rfl
  rw [String.utf8ByteSize_append, hend, lineOn, size]
  split
  · exact Nat.le_refl 1
  · rw [String.utf8ByteSize_append, utf8ByteSize_spaces]
    omega

namespace Buffer

variable {b b' : Buffer} {row : Row} {row? : Option Row}

theorem pushLine_eq_ok (h : b.pushLine machine width row = .ok b') :
    b'.text = b.text ++ row.lineOn width ∧ (machine.checked = true → row.Fits width) ∧
      (b.Sound → b'.Sound) := by
  unfold pushLine at h
  unfold Row.lineOn Row.Fits
  split at h
  · next hempty =>
      cases h
      exact ⟨by rw [if_pos hempty, String.append_empty], fun _ hne => absurd hempty hne, id⟩
  · next hempty =>
      obtain ⟨spaces, hword, hindented⟩ := Json.exists_of_bind_eq_ok h
      obtain ⟨indented, hpad, hpush⟩ := Json.exists_of_bind_eq_ok hindented
      obtain ⟨rfl, hchecked⟩ := Machine.word_eq_ok hword
      rw [pad_eq_push] at hpad
      obtain ⟨hspaces, hsound⟩ := push_eq_ok hpad
      obtain ⟨htext, hsound'⟩ := push_eq_ok hpush
      refine ⟨?_, fun h _ => hchecked h, hsound' ∘ hsound⟩
      rw [htext, hspaces, if_neg hempty, String.append_assoc]

/-- A line is not written if its indentation is no word and this is checked, or if there is no room. -/
theorem pushLine_eq_error (h : b.pushLine machine width row = .error halt) :
    (halt = .overflow ∧ machine.checked = true ∧ ¬ row.Fits width) ∨
      machine.Lacks (b.text.utf8ByteSize + (row.lineOn width).utf8ByteSize) halt := by
  unfold pushLine at h
  split at h
  · cases h
  next hempty =>
  rw [Row.lineOn, if_neg hempty, String.utf8ByteSize_append, utf8ByteSize_spaces]
  rcases error_or_of_bind_eq_error h with hword | ⟨spaces, hword, hindented⟩
  · obtain ⟨rfl, hchecked, hge⟩ := Machine.word_eq_error hword
    exact .inl ⟨rfl, hchecked, fun hfits => Nat.not_lt.mpr hge (hfits hempty)⟩
  right
  obtain ⟨rfl, -⟩ := Machine.word_eq_ok hword
  simp only [pad_eq_push] at hindented
  rcases error_or_of_bind_eq_error hindented with hpad | ⟨indented, hpad, hpush⟩
  · refine (push_eq_error hpad).mono ?_
    rw [utf8ByteSize_spaces]
    omega
  · have hindent : indented.text.utf8ByteSize = b.text.utf8ByteSize + row.depth * width % UInt64.size := by
      rw [(push_eq_ok hpad).1, String.utf8ByteSize_append, utf8ByteSize_spaces]
    refine (push_eq_error hpush).mono ?_
    omega

theorem pushRow_eq_ok (h : b.pushRow machine width row = .ok b') :
    b'.text = b.text ++ (row.lineOn width ++ "\n") ∧ (machine.checked = true → row.Fits width) ∧
      (b.Sound → b'.Sound) := by
  obtain ⟨line, hline, hend⟩ := Json.exists_of_bind_eq_ok h
  obtain ⟨hwritten, hchecked, hsound⟩ := pushLine_eq_ok hline
  obtain ⟨htext, hsound'⟩ := push_eq_ok hend
  exact ⟨by rw [htext, hwritten, String.append_assoc], hchecked, hsound' ∘ hsound⟩

theorem pushRow_eq_error (h : b.pushRow machine width row = .error halt) :
    (halt = .overflow ∧ machine.checked = true ∧ ¬ row.Fits width) ∨
      machine.Lacks (b.text.utf8ByteSize + row.size width) halt := by
  have hsize := row.utf8ByteSize_lineOn_le width
  rw [String.utf8ByteSize_append] at hsize
  rcases error_or_of_bind_eq_error h with hline | ⟨line, hline, hend⟩
  · refine (pushLine_eq_error hline).imp_right fun hlacks => hlacks.mono ?_
    omega
  · refine .inr ((push_eq_error hend).mono ?_)
    rw [(pushLine_eq_ok hline).1, String.utf8ByteSize_append]
    omega

end Buffer

/-! ## Texts -/

/-- The text of some rows as a machine writes it. -/
def textOn (width : Nat) (rs : List Row) : String := String.join (rs.map fun row => row.lineOn width ++ "\n")

variable {rs : List Row}

theorem textOn_cons (width : Nat) (row : Row) (rs : List Row) :
    textOn width (row :: rs) = row.lineOn width ++ "\n" ++ textOn width rs := by
  rw [textOn, List.map_cons, String.join_cons, ← textOn]

theorem textOn_append (width : Nat) (rs ss : List Row) :
    textOn width (rs ++ ss) = textOn width rs ++ textOn width ss := by
  rw [textOn, List.map_append, String.join_append]
  rfl

theorem utf8ByteSize_textOn_le (width : Nat) (rs : List Row) :
    (textOn width rs).utf8ByteSize ≤ sizeOfRows width rs := by
  induction rs with
  | nil => exact Nat.le_refl 0
  | cons row rs ih =>
      have hrow := row.utf8ByteSize_lineOn_le width
      rw [textOn_cons, String.utf8ByteSize_append, sizeOfRows_cons]
      omega

/-- If all indentations are words, a machine writes the rows as they are. -/
theorem textOn_of_fits (h : ∀ row ∈ rs, row.Fits width) : textOn width rs = textOfRows width rs := by
  rw [textOfRows_eq_join, List.map_map, textOn]
  congr 1
  refine List.map_congr_left fun row hrow => ?_
  rw [row.lineOn_eq_line_iff.mpr (h row hrow)]
  rfl

theorem lines_textOn (h : ∀ row ∈ rs, SingleLine row.text) (width : Nat) :
    lines (textOn width rs) = rs.map (·.lineOn width) := by
  have hjoin : textOn width rs = String.join ((rs.map (·.lineOn width)).map (· ++ "\n")) := by
    rw [List.map_map]
    rfl
  rw [hjoin, lines_join]
  intro line hline
  obtain ⟨row, hrow, rfl⟩ := List.mem_map.mp hline
  rw [← Row.line_counted]
  exact Row.singleLine_line (h row hrow)

namespace Buffer

variable {b b' : Buffer} {row? : Option Row}

theorem pushRow?_eq_ok (h : b.pushRow? machine width row? = .ok b') :
    b'.text = b.text ++ textOn width row?.toList ∧
      (machine.checked = true → ∀ row ∈ row?.toList, row.Fits width) ∧ (b.Sound → b'.Sound) := by
  cases row? with
  | none =>
      cases h
      exact ⟨String.append_empty.symm, fun _ _ hrow => (List.not_mem_nil hrow).elim, id⟩
  | some row =>
      obtain ⟨htext, hchecked, hsound⟩ := pushRow_eq_ok h
      refine ⟨?_, fun h => List.forall_mem_singleton.mpr (hchecked h), hsound⟩
      rw [htext, Option.toList_some, textOn_cons, textOn, List.map_nil, String.join_nil, String.append_empty]

theorem pushRow?_eq_error (h : b.pushRow? machine width row? = .error halt) :
    (halt = .overflow ∧ machine.checked = true ∧ ∃ row ∈ row?.toList, ¬ row.Fits width) ∨
      machine.Lacks (b.text.utf8ByteSize + sizeOfRows width row?.toList) halt := by
  cases row? with
  | none => cases h
  | some row =>
      exact (pushRow_eq_error h).imp_left fun ⟨hhalt, hchecked, hfits⟩ =>
        ⟨hhalt, hchecked, row, List.mem_singleton_self row, hfits⟩

end Buffer

end UmlSkeleton

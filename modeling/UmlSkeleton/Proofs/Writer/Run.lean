import UmlSkeleton.Proofs.Layout.Runs
import UmlSkeleton.Proofs.Writer.Buffer

/-!
# Runs of a writer

A writer that comes to the end of its steps has written the page that they stand for, as long as all
indentations are words. One that is no word stops a machine that checks its arithmetic. A machine that does
not check it goes on with what is left of the indentation in a word, and nobody is told. Apart from that, a
writer halts only for want of room.

* `written_of_run` — what a writer has when it comes to the end of its steps.
* `halts_of_run` — why it does not.
* `writer_run` — the lines of a run, one for each step that wrote one, and when they are those of the page.
-/

namespace UmlSkeleton

open Text

variable {machine : Machine} {halt : Halt} {width : Nat}

/-! ## Steps and runs -/

/-- As deep as the steps come on the way, the depth is a word. -/
def LevelsFit (steps : List Step) : Prop :=
  ∀ before, before <+: steps → (Margin.run .start before).depth < UInt64.size

variable {steps : List Step} {w : Writer}

theorem depth_run_le (m : Margin) (steps : List Step) : (m.run steps).depth ≤ m.depth + steps.length := by
  induction steps generalizing m with
  | nil => exact Nat.le_refl _
  | cons step steps ih =>
      have hstep : (step.after m).depth ≤ m.depth + 1 := by
        cases step <;> simp only [Step.after] <;> omega
      have hrun := ih (step.after m)
      rw [Margin.run_cons, List.length_cons]
      omega

/-- The depths are words if there are fewer steps than words. -/
theorem levelsFit_of_length_lt (h : steps.length < UInt64.size) : LevelsFit steps := by
  intro before hbefore
  have hdepth := depth_run_le .start before
  have hlength := hbefore.length_le
  exact Nat.lt_of_le_of_lt (hdepth.trans (by rw [Margin.start, Nat.zero_add]; exact hlength)) h

theorem LevelsFit.mono {front : List Step} (h : LevelsFit steps) (hfront : front <+: steps) :
    LevelsFit front := fun before hbefore => h before (hbefore.trans hfront)

namespace Writer

theorem run_append (machine : Machine) (w : Writer) (xs ys : List Step) :
    w.run machine (xs ++ ys) = w.run machine xs >>= (·.run machine ys) := by
  induction xs generalizing w with
  | nil => rfl
  | cons step xs ih =>
      rw [List.cons_append, run, run]
      cases w.step machine step with
      | error e => rfl
      | ok next => exact ih next

theorem run_singleton (machine : Machine) (w : Writer) (step : Step) :
    w.run machine [step] = w.step machine step := by
  rw [run]
  cases w.step machine step <;> rfl

end Writer

/-- A writer that has come to the end of its steps stands where they lead, and has written their rows. -/
structure Written (machine : Machine) (width : Nat) (steps : List Step) (w : Writer) : Prop where
  width_eq : w.width = width
  margin_eq : w.margin = Margin.run .start steps
  text_eq : w.text = textOn width (rows .start steps)
  fits : machine.checked = true → ∀ row ∈ rows .start steps, row.Fits width
  sound : w.buffer.Sound

theorem Written.step {w' : Writer} {step : Step} (h : Written machine width steps w)
    (hlevels : LevelsFit (steps ++ [step])) (hstep : w.step machine step = .ok w') :
    Written machine width (steps ++ [step]) w' := by
  obtain ⟨buffer, hbuffer, hmore⟩ := Json.exists_of_bind_eq_ok hstep
  obtain ⟨depth, hword, hnext⟩ := Json.exists_of_bind_eq_ok hmore
  have hdepth := hlevels _ (List.prefix_refl _)
  rw [Margin.run_append, Margin.run_cons, Margin.run_nil] at hdepth
  rw [h.margin_eq, Machine.word_of_lt hdepth] at hword
  cases hword
  cases hnext
  obtain ⟨htext, hfits, hsound⟩ := Buffer.pushRow?_eq_ok hbuffer
  rw [h.width_eq, h.margin_eq] at htext hfits
  refine ⟨h.width_eq, ?_, ?_, fun hchecked => ?_, hsound h.sound⟩
  · rw [h.margin_eq, Margin.run_append, Margin.run_cons, Margin.run_nil]
  · rw [rows_concat, textOn_append, ← h.text_eq]
    exact htext
  · rw [rows_concat]
    exact List.forall_mem_append.mpr ⟨h.fits hchecked, hfits hchecked⟩

theorem written_of_run (hlevels : LevelsFit steps) (h : (Writer.new width).run machine steps = .ok w) :
    Written machine width steps w := by
  induction steps using List.reverseRecOn generalizing w with
  | nil =>
      cases h
      exact ⟨rfl, rfl, rfl, fun _ _ hrow => (List.not_mem_nil hrow).elim, Buffer.sound_empty⟩
  | append_singleton steps step ih =>
      rw [Writer.run_append] at h
      obtain ⟨u, hu, hstep⟩ := Json.exists_of_bind_eq_ok h
      rw [Writer.run_singleton] at hstep
      exact (ih (hlevels.mono (List.prefix_append ..)) hu).step hlevels hstep

/-- A writer does not come to the end of its steps if it has an indentation that is no word and checks this,
or if there is no room for what they write. -/
theorem halts_of_run (hlevels : LevelsFit steps) (h : (Writer.new width).run machine steps = .error halt) :
    (halt = .overflow ∧ machine.checked = true ∧ ∃ row ∈ rows .start steps, ¬ row.Fits width) ∨
      machine.Lacks (sizeOfRows width (rows .start steps)) halt := by
  induction steps using List.reverseRecOn with
  | nil => cases h
  | append_singleton steps step ih =>
      have hfront := hlevels.mono (List.prefix_append ..)
      rw [rows_concat, sizeOfRows_append]
      rw [Writer.run_append] at h
      rcases error_or_of_bind_eq_error h with hrun | ⟨u, hu, hstep⟩
      · rcases ih hfront hrun with ⟨hhalt, hchecked, row, hrow, hfits⟩ | hlacks
        · exact .inl ⟨hhalt, hchecked, row, List.mem_append_left _ hrow, hfits⟩
        · exact .inr (hlacks.mono (Nat.le_add_right ..))
      · have hwritten := written_of_run hfront hu
        rw [Writer.run_singleton] at hstep
        rcases error_or_of_bind_eq_error hstep with hbuffer | ⟨buffer, -, hmore⟩
        · rw [hwritten.width_eq, hwritten.margin_eq] at hbuffer
          rcases Buffer.pushRow?_eq_error hbuffer with ⟨hhalt, hchecked, row, hrow, hfits⟩ | hlacks
          · exact .inl ⟨hhalt, hchecked, row, List.mem_append_right _ hrow, hfits⟩
          · refine .inr (hlacks.mono ?_)
            have hsize := utf8ByteSize_textOn_le width (rows .start steps)
            rw [← hwritten.text_eq] at hsize
            exact Nat.add_le_add_right hsize _
        · -- The depth is a word by assumption.
          have hdepth := hlevels _ (List.prefix_refl _)
          rw [Margin.run_append, Margin.run_cons, Margin.run_nil] at hdepth
          rw [hwritten.margin_eq, Machine.word_of_lt hdepth] at hmore
          cases hmore

/-! ## The lines of a run -/

/-- The line that a step writes after others on a machine, if it writes one: a text behind what a word can hold
of its indentation, or nothing. A gap writes one if the page grows. -/
def Step.writtenOn? (w : Nat) (before : List Step) (step : Step) : Option String :=
  match step with
  | .line text => some (Row.lineOn w ⟨(pageAfter w before).margin.depth, text⟩)
  | .enter text => some (Row.lineOn w ⟨(pageAfter w before).margin.depth, text⟩)
  | .leave text => some (Row.lineOn w ⟨(pageAfter w (before ++ [.leave text])).margin.depth, text⟩)
  | .blank => some ""
  | .gap => if (pageAfter w (before ++ [.gap])).text = (pageAfter w before).text then none else some ""
  | .indent => none
  | .dedent => none

theorem Row.lineOn_blank (w depth : Nat) : Row.lineOn w ⟨depth, ""⟩ = "" := if_pos rfl

/-- What a step writes on a machine is its row, as the machine writes it. -/
theorem Step.writtenOn?_eq (w : Nat) (before : List Step) (step : Step) :
    step.writtenOn? w before = (step.row? (Margin.run .start before)).map (Row.lineOn w) := by
  cases step with
  | line text => rfl
  | enter text => rfl
  | leave text =>
      rw [writtenOn?, depth_pageAfter, Margin.run_append]
      rfl
  | blank => rw [writtenOn?, row?, Option.map_some, Row.lineOn_blank]
  | gap =>
      -- A gap says the same on a machine as on a page.
      have hpage := written?_eq w before .gap
      rw [written?] at hpage
      rw [writtenOn?, hpage, row?]
      cases (Margin.run .start before).due with
      | true => rw [if_pos rfl, Option.map_some, Option.map_some, Row.line_blank, Row.lineOn_blank]
      | false => rfl
  | indent => rfl
  | dedent => rfl

theorem map_lineOn_rows_start (w : Nat) (steps : List Step) :
    (rows .start steps).map (·.lineOn w) =
      (calls steps).filterMap fun call => call.2.writtenOn? w call.1 := by
  simp only [rows_start, List.map_filterMap, Step.writtenOn?_eq]

/-- The lines that a machine writes are those of the page exactly if all indentations are words. -/
theorem writtenOn?_eq_written?_iff (w : Nat) (steps : List Step) :
    ((calls steps).filterMap fun call => call.2.writtenOn? w call.1) =
        ((calls steps).filterMap fun call => call.2.written? w call.1) ↔
      ∀ row ∈ rows .start steps, row.Fits w := by
  rw [← map_lineOn_rows_start, ← linesOf_start, linesOf, List.map_inj_left]
  exact forall₂_congr fun row _ => row.lineOn_eq_line_iff

theorem textOn_eq_empty_or (w : Nat) (steps : List Step) :
    textOn w (rows .start steps) = "" ∨ ∃ init, textOn w (rows .start steps) = init ++ "\n" := by
  induction steps using List.reverseRecOn with
  | nil => exact .inl rfl
  | append_singleton steps step ih =>
      rw [rows_concat, textOn_append]
      cases step.row? (Margin.run .start steps) with
      | none => rwa [Option.toList_none, textOn, textOn, List.map_nil, String.join_nil, String.append_empty]
      | some row =>
          refine .inr ⟨textOn w (rows .start steps) ++ row.lineOn w, ?_⟩
          rw [Option.toList_some, textOn_cons, textOn, textOn, List.map_nil, String.join_nil,
            String.append_empty, String.append_assoc]

/-- Each step adds the line that it writes, with its end, and nothing else. -/
theorem Written.text_concat {u : Writer} {step : Step} (hu : Written machine width steps u)
    (hw : Written machine width (steps ++ [step]) w) :
    w.text = u.text ++ (step.writtenOn? width steps).elim "" (· ++ "\n") := by
  rw [hw.text_eq, hu.text_eq, rows_concat, textOn_append, Step.writtenOn?_eq]
  cases step.row? (Margin.run .start steps) with
  | none => rfl
  | some row =>
      rw [Option.toList_some, textOn_cons, textOn, textOn, List.map_nil, String.join_nil, String.append_empty]
      rfl

/-- **Runs of a writer.** On its way a text grows step by step, each adding the line that it writes with its
end, or nothing; so the text is empty or ends a line. When the writer comes to the end of its steps, its lines
are those that the steps wrote, one for each step that wrote one, in order: a text behind what a word can hold
of its indentation, or nothing. These are the lines of the page exactly if all indentations are words, which
they are if the machine checks them. How deep the writer is in the end is what the steps add up to, less the
lowest that they add up to on the way. And it does come to the end, unless the machine finds an indentation
that is no word, or lacks room for what is at most twice the size of the page. -/
theorem writer_run (machine : Machine) (width : Nat) (htexts : EachText SingleLine steps)
    (hlevels : LevelsFit steps) :
    (∀ w, (Writer.new width).run machine steps = .ok w →
      (∀ before step, before ++ [step] <+: steps → ∃ u v,
        (Writer.new width).run machine before = .ok u ∧
          (Writer.new width).run machine (before ++ [step]) = .ok v ∧
          u.margin = (pageAfter width before).margin ∧
          v.text = u.text ++ (step.writtenOn? width before).elim "" (· ++ "\n")) ∧
      (w.text = "" ∨ ∃ init, w.text = init ++ "\n") ∧
      lines w.text = (calls steps).filterMap (fun call => call.2.writtenOn? width call.1) ∧
      (lines w.text = (calls steps).filterMap (fun call => call.2.written? width call.1) ↔
        ∀ row ∈ rows .start steps, row.Fits width) ∧
      (machine.checked = true → ∀ row ∈ rows .start steps, row.Fits width) ∧
      (w.margin.depth : Int) = rise steps - lowest steps) ∧
    ∀ halt, (Writer.new width).run machine steps = .error halt →
      (halt = .overflow ∧ machine.checked = true ∧ ∃ row ∈ rows .start steps, ¬ row.Fits width) ∨
        machine.Lacks (pageAfter width steps).text.utf8ByteSize halt := by
  refine ⟨fun w hw => ?_, fun halt hhalt => ?_⟩
  · have hwritten := written_of_run hlevels hw
    have hlines : lines w.text = (calls steps).filterMap (fun call => call.2.writtenOn? width call.1) := by
      rw [hwritten.text_eq, ← map_lineOn_rows_start]
      exact lines_textOn (forall_mem_rows (by decide) htexts .start) width
    refine ⟨?_, ?_, hlines, ?_, hwritten.fits, ?_⟩
    · rintro before step ⟨after, rfl⟩
      rw [Writer.run_append] at hw
      obtain ⟨v, hv, -⟩ := Json.exists_of_bind_eq_ok hw
      have hrun := hv
      rw [Writer.run_append] at hrun
      obtain ⟨u, hu, -⟩ := Json.exists_of_bind_eq_ok hrun
      have hfront := hlevels.mono (List.prefix_append ..)
      have hbefore := written_of_run (hfront.mono (List.prefix_append ..)) hu
      exact ⟨u, v, hu, hv, hbefore.margin_eq, hbefore.text_concat (written_of_run hfront hv)⟩
    · rw [hwritten.text_eq]
      exact textOn_eq_empty_or width steps
    · rw [hlines]
      exact writtenOn?_eq_written?_iff width steps
    · rw [hwritten.margin_eq]
      exact depth_run_start steps
  · have hpage : (pageAfter width steps).text.utf8ByteSize = sizeOfRows width (rows .start steps) :=
      utf8ByteSize_textOfRows width _
    rw [hpage]
    exact halts_of_run hlevels hhalt

/-- Checked or not, a machine writes a step too far out, a block with two siblings, and an end without a text. -/
theorem writer_run_of_block :
    let steps : List Step :=
      [.dedent, .gap, .enter "a \x7b", .gap, .line "x", .gap, .gap, .line "y", .leave "\x7d", .leave "", .indent]
    EachText SingleLine steps ∧ LevelsFit steps ∧
      ∀ checked, ∃ w, (Writer.new 2).run ⟨checked, fun _ => true⟩ steps = .ok w ∧
        lines w.text = ["a \x7b", "  x", "", "  y", "\x7d", ""] ∧ (w.margin.depth : Int) = 1 := by
  intro steps
  have htexts : EachText SingleLine steps := by
    simp +decide [steps]
  have hlevels : LevelsFit steps := levelsFit_of_length_lt (by decide)
  have hfits : ∀ row ∈ rows .start steps, row.Fits 2 := by
    decide
  refine ⟨htexts, hlevels, fun checked => ?_⟩
  obtain ⟨hwritten, hhalts⟩ := writer_run ⟨checked, fun _ => true⟩ 2 htexts hlevels
  cases hrun : (Writer.new 2).run ⟨checked, fun _ => true⟩ steps with
  | ok w =>
      obtain ⟨-, -, -, hlines, -, hdepth⟩ := hwritten w hrun
      exact ⟨w, rfl, (hlines.mpr hfits).trans (by decide), hdepth.trans (by decide)⟩
  | error halt =>
      rcases hhalts halt hrun with ⟨-, -, row, hrow, hnot⟩ | hlacks
      · exact absurd (hfits row hrow) hnot
      · exact absurd hlacks (Machine.not_lacks_of_grants (fun _ => rfl) (by decide))

/-- Two levels of half a word each are an indentation that is no word. A machine that does not check it writes
the text without any. -/
theorem exists_run_without_indentation :
    let steps : List Step := [.indent, .indent, .line "x"]
    EachText SingleLine steps ∧
      (Writer.new 9223372036854775808).run ⟨true, fun _ => true⟩ steps = .error .overflow ∧
      ∃ w, (Writer.new 9223372036854775808).run ⟨false, fun _ => true⟩ steps = .ok w ∧
        w.text = "x\n" ∧ w.margin.depth = 2 ∧
        lines w.text ≠ (calls steps).filterMap fun call => call.2.written? 9223372036854775808 call.1 := by
  intro steps
  have htexts : EachText SingleLine steps := by
    simp +decide [steps]
  refine ⟨htexts, rfl, _, rfl, rfl, rfl, fun h => ?_⟩
  have hall := (writtenOn?_eq_written?_iff 9223372036854775808 steps).mp h
  exact absurd (hall ⟨2, "x"⟩ (by decide)) (by decide)

end UmlSkeleton

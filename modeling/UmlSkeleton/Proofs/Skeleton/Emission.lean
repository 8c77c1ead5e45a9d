import UmlSkeleton.Proofs.Skeleton.Reach
import UmlSkeleton.Proofs.Writer.Run
import UmlSkeleton.Skeleton.Emission

/-!
# Skeletons on a machine

The width of an indentation may be any word, and then the indentations of a skeleton, which are a few times as
wide, need not be words. A writer does not come to one that is none. What a layout has three levels deep has
something above it two levels deep, and once that has room in a buffer, three levels are a word. So it does not
matter whether a machine checks its arithmetic, and what comes out of it is the skeleton or nothing.

* `fits_of_run`, `run_congr` — writers of layouts that climb level by level.
* `Model.fits_next` — no row that a writer comes to has too wide an indentation.
* `Model.emit_eq_ok`, `Model.emit_eq_error` — both ends of an emission.
* `Model.emit_congr` — an emission does not depend on whether arithmetic is checked.
-/

namespace UmlSkeleton

variable {machine machine' : Machine} {halt : Halt} {width : Nat} {steps : List Step} {w : Writer}

/-! ## Writers of layouts that climb -/

/-- Where all rows so far are written as they are, the next indentation is a word. -/
theorem Written.fits_next {step : Step} (h : Written machine width steps w)
    (hfits : ∀ row ∈ rows .start steps, row.Fits width)
    (hclimbs : Climbs 0 (rows .start (steps ++ [step]))) (hwidth : width < UInt64.size) :
    ∀ row ∈ (step.row? (Margin.run .start steps)).toList, row.Fits width := by
  have hsize : sizeOfRows width (rows .start steps) ≤ maxCapacity := by
    have htext : w.text = textOfRows width (rows .start steps) := h.text_eq.trans (textOn_of_fits hfits)
    rw [← utf8ByteSize_textOfRows, ← htext]
    exact h.sound.1.trans h.sound.2
  rw [rows_concat] at hclimbs
  cases hrow : step.row? (Margin.run .start steps) with
  | none => exact fun row hmem => (List.not_mem_nil hmem).elim
  | some row =>
      rw [hrow, Option.toList_some] at hclimbs
      exact List.forall_mem_singleton.mpr fun _ => hclimbs.mul_lt_of_fits hsize hwidth

theorem fits_of_run (hclimbs : Climbs 0 (rows .start steps)) (hlevels : LevelsFit steps)
    (hwidth : width < UInt64.size) (h : (Writer.new width).run machine steps = .ok w) :
    ∀ row ∈ rows .start steps, row.Fits width := by
  induction steps using List.reverseRecOn generalizing w with
  | nil => exact fun row hrow => (List.not_mem_nil hrow).elim
  | append_singleton steps step ih =>
      have hfront := hlevels.mono (List.prefix_append steps [step])
      have hfrontClimbs := hclimbs
      rw [rows_concat] at hfrontClimbs
      rw [Writer.run_append] at h
      obtain ⟨u, hu, -⟩ := Json.exists_of_bind_eq_ok h
      have hfits := ih (climbs_append.mp hfrontClimbs).1 hfront hu
      rw [rows_concat]
      exact List.forall_mem_append.mpr
        ⟨hfits, (written_of_run hfront hu).fits_next hfits hclimbs hwidth⟩

/-! ### Machines with the same memory -/

section
variable (hgrants : machine.grants = machine'.grants)
include hgrants

theorem Machine.allocate_congr (capacity : Nat) : machine.allocate capacity = machine'.allocate capacity := by
  unfold allocate
  rw [hgrants]

theorem Buffer.push_congr (text : String) (b : Buffer) : b.push machine text = b.push machine' text := by
  unfold push reserve
  simp only [Machine.allocate_congr hgrants]

theorem Buffer.pushRow?_congr {row? : Option Row} (hfits : ∀ row ∈ row?.toList, row.Fits width) (b : Buffer) :
    b.pushRow? machine width row? = b.pushRow? machine' width row? := by
  cases row? with
  | none => rfl
  | some row =>
      have hline : b.pushLine machine width row = b.pushLine machine' width row := by
        unfold pushLine
        split
        · rfl
        · next hempty =>
            have hword := List.forall_mem_singleton.mp hfits hempty
            simp only [Machine.word_of_lt hword, pad_eq_push, push_congr hgrants]
      simp only [pushRow?, pushRow, hline, push_congr hgrants]

/-- Checking arithmetic makes no difference where all numbers are words. -/
theorem run_congr (hclimbs : Climbs 0 (rows .start steps)) (hlevels : LevelsFit steps)
    (hwidth : width < UInt64.size) :
    (Writer.new width).run machine steps = (Writer.new width).run machine' steps := by
  induction steps using List.reverseRecOn with
  | nil => rfl
  | append_singleton steps step ih =>
      have hfront := hlevels.mono (List.prefix_append steps [step])
      have hfrontClimbs := hclimbs
      rw [rows_concat] at hfrontClimbs
      replace hfrontClimbs := (climbs_append.mp hfrontClimbs).1
      rw [Writer.run_append, Writer.run_append, ← ih hfrontClimbs hfront]
      cases hu : (Writer.new width).run machine steps with
      | error e => rfl
      | ok u =>
          show u.run machine [step] = u.run machine' [step]
          have hwritten := written_of_run hfront hu
          have hfits := fits_of_run hfrontClimbs hfront hwidth hu
          have hdepth := hlevels _ (List.prefix_refl _)
          rw [Margin.run_append, Margin.run_cons, Margin.run_nil] at hdepth
          rw [Writer.run_singleton, Writer.run_singleton, Writer.step, Writer.step, hwritten.width_eq,
            hwritten.margin_eq, Machine.word_of_lt hdepth, Machine.word_of_lt hdepth,
            Buffer.pushRow?_congr hgrants (hwritten.fits_next hfits hclimbs hwidth)]

end

/-! ## Emission -/

namespace Model

variable {m : Model} {o : Options} {target : Target} {text : String}

variable (m o target) in
/-- The depths of a layout are words, on the way as well: they are four at most. -/
theorem levelsFit_layout : LevelsFit (m.layout o target) := by
  intro before hbefore
  have hpeak := (m.reaches_layout o target).peak_le false
  have hreach := m.reach_le o target
  calc (Margin.run .start before).depth
    _ ≤ peak .start (m.layout o target) := depth_run_le_peak hbefore
    _ ≤ 4 := by
      rw [Margin.start]
      omega
    _ < UInt64.size := by decide

section
variable (hwidth : o.indent < UInt64.size)
include hwidth

/-- Whatever row a writer of a layout comes to, its indentation is a word. -/
theorem fits_next {before : List Step} {step : Step} {w : Writer}
    (hbefore : before ++ [step] <+: m.layout o target)
    (hrun : (Writer.new o.indent).run machine before = .ok w) :
    ∀ row ∈ (step.row? w.margin).toList, row.Fits o.indent := by
  have hlevels := (m.levelsFit_layout o target).mono hbefore
  have hfront := hlevels.mono (List.prefix_append before [step])
  have hclimbs : Climbs 0 (rows .start (before ++ [step])) := by
    obtain ⟨after, hafter⟩ := hbefore
    have hall := m.climbs_rows o target
    rw [← hafter, rows_append] at hall
    exact (climbs_append.mp hall).1
  have hfrontClimbs := hclimbs
  rw [rows_append] at hfrontClimbs
  have hwritten := written_of_run hfront hrun
  have hfits := fits_of_run (climbs_append.mp hfrontClimbs).1 hfront hwidth hrun
  rw [hwritten.margin_eq]
  exact hwritten.fits_next hfits hclimbs hwidth

/-- An emission does not depend on whether arithmetic is checked. -/
theorem emit_congr (hgrants : machine.grants = machine'.grants) :
    m.emit machine o target = m.emit machine' o target := by
  rw [emit, emit, run_congr hgrants (m.climbs_rows o target) (m.levelsFit_layout o target) hwidth]

/-- What is emitted is the skeleton, it has room in a buffer, and all its indentations are words. -/
theorem emit_eq_ok (h : m.emit machine o target = .ok text) :
    text = m.skeleton o target ∧ text.utf8ByteSize ≤ maxCapacity ∧
      ∀ row ∈ rows .start (m.layout o target), row.Fits o.indent := by
  obtain ⟨w, hrun, hw⟩ := Json.exists_of_bind_eq_ok h
  cases hw
  have hwritten := written_of_run (m.levelsFit_layout o target) hrun
  have hfits := fits_of_run (m.climbs_rows o target) (m.levelsFit_layout o target) hwidth hrun
  exact ⟨hwritten.text_eq.trans (textOn_of_fits hfits), hwritten.sound.1.trans hwritten.sound.2, hfits⟩

/-- Where there is no text, there is no room for it. -/
theorem emit_eq_error (h : m.emit machine o target = .error halt) :
    machine.Lacks (m.skeleton o target).utf8ByteSize halt := by
  have hunchecked : m.emit machine o target = m.emit ⟨false, machine.grants⟩ o target := emit_congr hwidth rfl
  rw [hunchecked] at h
  rw [utf8ByteSize_skeleton]
  rcases error_or_of_bind_eq_error h with hrun | ⟨w, -, hw⟩
  · rcases halts_of_run (m.levelsFit_layout o target) hrun with ⟨-, hchecked, -⟩ | hlacks
    · cases hchecked
    · exact hlacks
  · cases hw

/-- Where all memory is granted, a skeleton of half the size of the largest buffer is emitted. -/
theorem emit_of_grants (hgrants : ∀ capacity, machine.grants capacity = true)
    (hsize : 2 * sizeOfRows o.indent (rows .start (m.layout o target)) ≤ maxCapacity) :
    m.emit machine o target = .ok (m.skeleton o target) := by
  rw [← utf8ByteSize_skeleton] at hsize
  cases hemit : m.emit machine o target with
  | ok text => rw [(emit_eq_ok hwidth hemit).1]
  | error halt => exact absurd (emit_eq_error hwidth hemit) (Machine.not_lacks_of_grants hgrants hsize)

end

end Model

end UmlSkeleton

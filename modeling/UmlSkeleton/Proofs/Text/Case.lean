import UmlSkeleton.Proofs.Text.Lines
import UmlSkeleton.Text.Case

/-!
# What upper case brings in

The upper case of a character is read off tables. They hold no control characters, no spaces and no
punctuation: a character that upper case brings in is `A` or one after it, and it is no brace. So a text
that gets an upper case first character stays on a single line, and neither opens nor closes a block.
-/

namespace UmlSkeleton.Text

theorem toNat_ofNat {code : Nat} (h : code.isValidChar) : (Char.ofNat code).toNat = code := by
  rw [Char.ofNat, dif_pos h]
  rfl

/-- The code point is `A` or one after it, and none from the opening brace to the closing one. -/
def IsLetterCode (code : Nat) : Prop := 65 ≤ code ∧ (code < 123 ∨ 125 < code)

instance (code : Nat) : Decidable (IsLetterCode code) := inferInstanceAs (Decidable (_ ∧ _))

theorem isLetterCode_of_mem_upperExpansions :
    ∀ e ∈ upperExpansions, ∀ code ∈ e.2, IsLetterCode code ∧ code < 0xD800 := by
  decide +kernel

theorem bounds_of_mem_upperRuns : ∀ run ∈ upperRuns, 65 ≤ run.first + run.shift ∧
    (run.last + run.shift < 123 ∨ 125 < run.first + run.shift) ∧
    (run.last + run.shift < 0xD800 ∨
      0xDFFF < run.first + run.shift ∧ run.last + run.shift < 0x110000) := by
  decide +kernel

/-- What a run makes of a character that it covers. -/
theorem CaseRun.isLetterCode_apply {run : CaseRun} (hrun : run ∈ upperRuns) {code : Nat}
    (h : run.covers code = true) : IsLetterCode (run.apply code).toNat := by
  obtain ⟨hfirst, hbraces, hvalid⟩ := bounds_of_mem_upperRuns run hrun
  simp only [CaseRun.covers, Bool.and_eq_true, decide_eq_true_eq] at h
  have hcode : (code + run.shift).toNat.isValidChar := by
    rcases hvalid with hvalid | ⟨habove, hbelow⟩
    · exact .inl (by omega)
    · exact .inr (by omega)
  rw [CaseRun.apply, toNat_ofNat hcode]
  unfold IsLetterCode
  omega

theorem eq_or_isLetterCode_of_mem_upperChar {c d : Char} (h : d ∈ upperChar c) :
    d = c ∨ IsLetterCode d.toNat := by
  unfold upperChar mapCase at h
  split at h
  · next codes hcodes =>
      obtain ⟨before, after, hsplit, -⟩ := List.lookup_eq_some_iff.mp hcodes
      have hmem : (c.toNat, codes) ∈ upperExpansions := by simp [hsplit]
      obtain ⟨code, hcode, rfl⟩ := List.mem_map.mp h
      obtain ⟨hletter, hlt⟩ := isLetterCode_of_mem_upperExpansions _ hmem code hcode
      right
      rw [toNat_ofNat (.inl hlt)]
      exact hletter
  · split at h
    · next run hrun =>
        have hcovers : run.covers c.toNat = true := by simpa using List.find?_some hrun
        rw [List.mem_singleton.mp h]
        exact .inr (CaseRun.isLetterCode_apply (List.mem_of_find?_eq_some hrun) hcovers)
    · exact .inl (List.mem_singleton.mp h)

/-- A character of a text with an upper case first character is one of the text, or a letter. -/
theorem mem_or_isLetterCode_of_mem_capitalize {s : String} {d : Char}
    (h : d ∈ (capitalize s).toList) : d ∈ s.toList ∨ IsLetterCode d.toNat := by
  unfold capitalize at h
  cases hchars : s.toList with
  | nil =>
      rw [hchars] at h
      cases h
  | cons c rest =>
      rw [hchars] at h
      rw [String.toList_ofList, List.mem_append] at h
      rcases h with h | h
      · rcases eq_or_isLetterCode_of_mem_upperChar h with rfl | hletter
        · exact .inl (List.mem_cons_self ..)
        · exact .inr hletter
      · exact .inl (List.mem_cons_of_mem c h)

/-- No framing character is brought in. -/
theorem Without.capitalize {bad : Char → Bool} (hbad : ∀ c, bad c = true → isFraming c = true)
    {s : String} (h : Without bad s) : Without bad (capitalize s) := by
  intro c hc
  refine Bool.eq_false_iff.mpr fun hc' => ?_
  rcases mem_or_isLetterCode_of_mem_capitalize hc with hmem | hletter
  · exact Bool.eq_false_iff.mp (h c hmem) hc'
  · have hframing := hbad c hc'
    simp only [isFraming, isLineEnd, isBrace, Bool.or_eq_true, decide_eq_true_eq] at hframing
    rcases hframing with rfl | rfl | rfl
    · exact absurd hletter (by decide)
    · exact absurd hletter (by decide)
    · exact absurd hletter (by decide)

theorem SingleLine.capitalize {s : String} (h : SingleLine s) : SingleLine (capitalize s) := by
  rw [← without_isLineEnd_iff] at *
  exact Without.capitalize isFraming_of_isLineEnd h

end UmlSkeleton.Text

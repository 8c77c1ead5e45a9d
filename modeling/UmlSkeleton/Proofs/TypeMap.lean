import UmlSkeleton.Proofs.Model.Texts
import UmlSkeleton.TypeMap

/-!
# Types across targets

Three tables spell the types, one for each target, and each has a way out for a text that names no known type:
Java keeps the text, PHP and Python have a word for any value. This module says that all of them part the texts
at the same line, although the way out of Java leads through the words of the other tables: a type may be called
`bool`, `None` or `Object`.

What a known text means does not depend on the blanks around it or on its case. As the words for the known types
are ASCII, this is so however other letters are put in lower case.

* `KnownType.ofText?_eq_some_iff` — a text names a known type if it is the word for it, blanks and case aside.
* `spellType_coherent` — the three tables agree on which texts are known.
-/

namespace UmlSkeleton

open Text

/-! ## Known texts -/

theorem KnownType.ofText?_eq_some_iff {s : String} {type : KnownType} :
    ofText? s = some type ↔ fold s = type.word := by
  unfold ofText?
  constructor
  · intro h
    have hword := List.find?_some h
    exact (of_decide_eq_true hword).symm
  · intro h
    rw [h]
    cases type <;> decide

theorem spellType_of_known {s : String} {type : KnownType} (h : KnownType.ofText? s = some type)
    (target : Target) : spellType target s = (TypeToken.known type).spelling target := by
  rw [spellType, TypeToken.ofText, h]

theorem spellType_of_unknown {s : String} (h : KnownType.ofText? s = none) (target : Target) :
    spellType target s = (TypeToken.custom s).spelling target := by
  rw [spellType, TypeToken.ofText, h]

/-- A known text stands for its word: blanks around it and its case do not matter. -/
theorem spellType_congr {s t : String} {type : KnownType} (hs : KnownType.ofText? s = some type)
    (h : fold t = fold s) (target : Target) : spellType target t = spellType target s := by
  have ht : KnownType.ofText? t = some type := by
    rw [KnownType.ofText?_eq_some_iff, h, ← KnownType.ofText?_eq_some_iff]
    exact hs
  rw [spellType_of_known hs, spellType_of_known ht]

/-! ## What the tables know -/

/-- The words for the known types in Java. -/
def javaTypes : List String := ["String", "int", "double", "float", "boolean", "void"]

/-- Java's word for a known type names that type. -/
theorem ofText?_spelling_java (type : KnownType) :
    KnownType.ofText? ((TypeToken.known type).spelling .java) = some type := by
  rw [KnownType.ofText?_eq_some_iff]
  cases type <;> decide

theorem mem_javaTypes_iff {text : String} :
    text ∈ javaTypes ↔ ∃ type, (TypeToken.known type).spelling .java = text := by
  constructor
  · intro h
    simp only [javaTypes, List.mem_cons, List.not_mem_nil, or_false] at h
    rcases h with rfl | rfl | rfl | rfl | rfl | rfl
    exacts [⟨.string, rfl⟩, ⟨.int, rfl⟩, ⟨.double, rfl⟩, ⟨.float, rfl⟩, ⟨.boolean, rfl⟩, ⟨.void, rfl⟩]
  · rintro ⟨type, rfl⟩
    cases type <;> decide

/-- Only unknown texts get the word for any value, where a target has one. -/
theorem spellType_eq_custom_iff {target : Target} (h : target ≠ .java) {s : String} :
    spellType target s = (TypeToken.custom s).spelling target ↔ KnownType.ofText? s = none := by
  cases hs : KnownType.ofText? s with
  | some type =>
      rw [spellType_of_known hs]
      cases target with
      | java => exact absurd rfl h
      | php => cases type <;> simp [TypeToken.spelling]
      | python => cases type <;> simp [TypeToken.spelling]
  | none => exact iff_of_true (spellType_of_unknown hs target) rfl

/-- A custom type that is kept as it is written is none of the words for known types, or it would be known. -/
theorem spellType_java_mem_iff {s : String} :
    spellType .java s ∈ javaTypes ↔ (KnownType.ofText? s).isSome = true := by
  cases h : KnownType.ofText? s with
  | some type =>
      rw [spellType_of_known h]
      exact iff_of_true (mem_javaTypes_iff.mpr ⟨type, rfl⟩) rfl
  | none =>
      rw [spellType_of_unknown h, TypeToken.spelling]
      split
      · decide
      · refine iff_of_false (fun hmem => ?_) Bool.false_ne_true
        obtain ⟨type, htype⟩ := mem_javaTypes_iff.mp hmem
        rw [← htype, ofText?_spelling_java] at h
        cases h

/-! ## Spelling what was spelled -/

theorem spellType_java_idem (s : String) : spellType .java (spellType .java s) = spellType .java s := by
  cases h : KnownType.ofText? s with
  | some type =>
      rw [spellType_of_known h]
      exact spellType_of_known (ofText?_spelling_java type) .java
  | none =>
      rw [spellType_of_unknown h, TypeToken.spelling]
      split
      · decide
      · next hblank => rw [spellType_of_unknown h, TypeToken.spelling, if_neg hblank]

theorem allBlank_spellType (target : Target) (s : String) : allBlank (spellType target s) = false := by
  cases h : KnownType.ofText? s with
  | some type =>
      rw [spellType_of_known h]
      cases target <;> cases type <;> decide
  | none =>
      rw [spellType_of_unknown h]
      cases target with
      | java =>
          rw [TypeToken.spelling]
          split
          · decide
          · next hblank => exact Bool.eq_false_iff.mpr hblank
      | php => exact (by decide : allBlank "mixed" = false)
      | python => exact (by decide : allBlank "Any" = false)

/-- **Types.** Every text has a spelling in every target, and none is blank. PHP writes `mixed` for the same texts
for which Python writes `Any` and Java none of its words for known types. What Java writes is a type text that it
keeps. And a text that is known to one target, and so to all, is spelled like any other that differs from it only
in the blanks around it and in case. -/
theorem spellType_coherent (s : String) :
    (∀ target, allBlank (spellType target s) = false) ∧
      (spellType .php s = "mixed" ↔ spellType .python s = "Any") ∧
      (spellType .python s = "Any" ↔ spellType .java s ∉ javaTypes) ∧
      spellType .java (spellType .java s) = spellType .java s ∧
      (spellType .php s ≠ "mixed" →
        ∀ t, fold t = fold s → ∀ target, spellType target t = spellType target s) := by
  have hphp : spellType .php s = "mixed" ↔ KnownType.ofText? s = none := spellType_eq_custom_iff (by decide)
  have hpython : spellType .python s = "Any" ↔ KnownType.ofText? s = none := spellType_eq_custom_iff (by decide)
  refine ⟨fun target => allBlank_spellType target s, hphp.trans hpython.symm, ?_, spellType_java_idem s, ?_⟩
  · rw [hpython, spellType_java_mem_iff, Option.not_isSome_iff_eq_none]
  · intro hs t ht
    rw [Ne, hphp] at hs
    obtain ⟨type, htype⟩ := Option.ne_none_iff_exists'.mp hs
    exact spellType_congr htype ht

example : spellType .php "bool" = "mixed" ∧ spellType .python "None" = "Any" ∧ spellType .java "str" = "str" := by
  decide

/-- A number type in other letters and with blanks around it. -/
theorem spellType_coherent_of_int :
    spellType .php "Int" ≠ "mixed" ∧ fold "\tINT\u3000" = fold "Int" ∧
      ∀ target, spellType target "\tINT\u3000" = spellType target "Int" := by
  have hknown : spellType .php "Int" ≠ "mixed" := by decide
  have hfold : fold "\tINT\u3000" = fold "Int" := by decide
  exact ⟨hknown, hfold, (spellType_coherent "Int").2.2.2.2 hknown _ hfold⟩

end UmlSkeleton
